/-
The list screen and the store.

The list is rebuilt from the store when the editor is left through its back
button.  In between, a confirmed delete takes its row out of the texts but not
out of the group ids, so the rows after it name one group and open, and delete,
another.

* `Inv.aligned` — what a list that is the rebuilt one promises;
* `list_aligned_iff` — along a run the list is the rebuilt one whenever it is
  in front, exactly when nothing is deleted;
* `failed_delete_changes` — also a delete that fails takes its row away.
-/
import HikakuKun.Reachable

namespace HikakuKun

/-- The delete of a row, confirmed. -/
def Event.isDelete : Event → Prop
  | confirmDelete _ _ => True
  | _ => False

namespace App

/-- The list is the one that would be rebuilt: each row shows, deletes and
opens the group behind it. -/
structure Aligned (s : App) : Prop where
  rebuilt : s.list = s.list.viewDidLoad true s.db
  length : s.list.displayList.length = s.list.groupIdList.length
  shows : ∀ (i : ℕ) g, s.list.groupIdList[i]? = some g → ∃ item ∈ s.db.items, item.groupId = g ∧
    s.list.displayList[i]? = some (ViewController.displayText s.db item)
  deletes : ∀ (i : ℕ) g, s.list.groupIdList[i]? = some g → ∃ t, app.Run s [.confirmDelete i .ok] t ∧
    t.db.items = s.db.items.filter (·.groupId ≠ g) ∧
    t.db.contents = s.db.contents.filter (·.groupId ≠ g)
  opens : ∀ (i : ℕ) g select reads, s.list.groupIdList[i]? = some g → reads.succeed →
    ∃ t vc, app.Run s [.didSelectRowAt i select reads] t ∧ t.editor = some vc ∧ vc.groupId = g

variable {s s' t : App} {e : Event} {es : List Event}

theorem Inv.aligned (h : s.Inv) (hed : s.editor = none)
    (hlist : s.list = s.list.viewDidLoad true s.db) : s.Aligned := by
  have hlength : s.list.displayList.length = s.list.groupIdList.length := by
    rw [hlist]
    exact ViewController.length_viewDidLoad true s.db _
  have hrow : ∀ {i : ℕ} {g}, s.list.groupIdList[i]? = some g → i < s.list.displayList.length := by
    intro i g hg
    rw [hlength]
    exact (List.getElem?_eq_some_iff.mp hg).1
  have hnone : s.editor.isNone = true := Option.isNone_iff_eq_none.mpr hed
  refine ⟨hlist, hlength, ?_, ?_, ?_⟩
  · intro i g hg
    rw [hlist, ViewController.viewDidLoad_true, List.getElem?_map] at hg
    obtain ⟨item, hitem, hid⟩ := Option.map_eq_some_iff.mp hg
    refine ⟨item, List.mem_of_getElem? hitem, hid, ?_⟩
    rw [hlist, ViewController.viewDidLoad_true, List.getElem?_map, hitem]
    rfl
  · intro i g hg
    have hstep := confirmDelete_eq (hrow hg) hg Delete.ok
    exact ⟨_, EventSystem.run_single_iff.mpr ⟨⟨hnone, hrow hg⟩, hstep⟩, rfl, rfl⟩
  · intro i g select reads hg hreads
    have hstep : s.step (.didSelectRowAt i select reads) = some (s.showing _) :=
      (didSelectRowAt_eq h hg).trans (if_pos hreads)
    exact ⟨_, _, EventSystem.run_single_iff.mpr ⟨⟨hnone, hrow hg⟩, hstep⟩, rfl, rfl⟩

/-- In front, the list is the rebuilt one. -/
def Rebuilt (s : App) : Prop := s.editor = none → s.list = s.list.viewDidLoad true s.db

/-- Every step but a delete and a swipe keeps the list rebuilt. -/
theorem Inv.rebuilt_step (hinv : s.Inv) (h : s.Rebuilt) (hok : e.succeeds) (hswipe : e ≠ .swipeDown)
    (hdel : ¬ e.isDelete) (he : app.enabled s e) (hs : app.step s e = some s') : s'.Rebuilt := by
  cases hinv.handled he hs with
  | notPresented reads => exact absurd hok.1 (by decide)
  | addNew hed hmax hreads => exact fun hnone => by cases hnone
  | select hed hrow hg hreads => exact fun hnone => by cases hnone
  | delete hed hrow hg => exact absurd trivial hdel
  | edit hed hf => exact fun hnone => by cases hnone
  | addName hed hbtn => exact fun hnone => by cases hnone
  | addItem hed hbtn => exact fun hnone => by cases hnone
  | save hed hsave => exact fun hnone => by cases hnone
  | @back opens =>
    have hopens : opens = true := hok
    subst hopens
    exact fun _ => rfl
  | swipe => exact absurd rfl hswipe
  | layout => exact h
  | @launch opens =>
    have hopens : opens = true := hok
    subst hopens
    exact fun _ => rfl

/-- After a delete the texts are one row short. -/
theorem Inv.not_aligned_of_delete (hinv : s.Inv)
    (hlength : s.list.displayList.length = s.list.groupIdList.length) (hdel : e.isDelete)
    (he : app.enabled s e) (hs : app.step s e = some s') :
    s'.editor = none ∧ ¬ s'.Aligned := by
  cases hinv.handled he hs with
  | @delete row g delete hed hrow hg =>
    refine ⟨hed, ?_⟩
    intro h
    have hshort : (s.list.displayList.eraseIdx row).length = s.list.groupIdList.length := h.length
    rw [List.length_eraseIdx_of_lt hrow] at hshort
    omega
  | notPresented => exact hdel.elim
  | addNew => exact hdel.elim
  | select => exact hdel.elim
  | edit => exact hdel.elim
  | addName => exact hdel.elim
  | addItem => exact hdel.elim
  | save => exact hdel.elim
  | back => exact hdel.elim
  | swipe => exact hdel.elim
  | layout => exact hdel.elim
  | launch => exact hdel.elim

end App

/-- **The list and the store.**  From a rebuilt list, along a run whose Realm
operations succeed and whose editors are left through the back button, the
list in front is always the rebuilt one exactly when nothing is deleted. -/
theorem list_aligned_iff {s t : App} {es : List Event} (hs : Reachable s)
    (hlist : s.list = s.list.viewDidLoad true s.db) (hrun : app.Run s es t)
    (hok : ∀ e ∈ es, e.succeeds ∧ e ≠ .swipeDown) :
    (∀ p u, p <+: es → app.Run s p u → u.editor = none → u.Aligned) ↔
      ∀ e ∈ es, ¬ e.isDelete := by
  constructor
  · intro h e he hdel
    obtain ⟨p, q, rfl⟩ := List.append_of_mem he
    obtain ⟨u, hu, hrest⟩ := EventSystem.run_append_iff.mp hrun
    obtain ⟨hcan, u', hu', -⟩ := EventSystem.run_cons_iff.mp hrest
    have hinv : u.Inv := hu.invariant (fun hi he hs => hi.step he hs) hs.inv
    -- the list was in front before the delete, and aligned
    have hfront : u.editor = none := by
      cases e with
      | confirmDelete row delete => exact Option.isNone_iff_eq_none.mp hcan.1
      | _ => exact hdel.elim
    have hbefore := h p u (List.prefix_append p _) hu hfront
    obtain ⟨hfront', hnot⟩ := hinv.not_aligned_of_delete hbefore.length hdel hcan hu'
    -- after it the list is in front again, one text short
    have hpre : p ++ [e] <+: p ++ e :: q := ⟨q, by simp⟩
    exact hnot (h _ u' hpre (hu.snoc hcan hu') hfront')
  · intro hdel p u hp hu hfront
    have hboth : u.Inv ∧ u.Rebuilt :=
      hu.invariant_on (I := fun s => s.Inv ∧ s.Rebuilt)
        (P := fun e => (e.succeeds ∧ e ≠ .swipeDown) ∧ ¬ e.isDelete)
        (fun ⟨hi, hr⟩ ⟨⟨hsucc, hswipe⟩, hdel⟩ he hs =>
          ⟨hi.step he hs, hi.rebuilt_step hr hsucc hswipe hdel he hs⟩)
        (fun e he => ⟨hok e (hp.subset he), hdel e (hp.subset he)⟩) ⟨hs.inv, fun _ => hlist⟩
    exact hboth.1.aligned hfront (hboth.2 hfront)

/-- Two saved comparisons, and the list in front. -/
def twoGroups : List Event :=
  [.addNewHikakuBtnDidTap true .ok, .edit .groupNameTF "a", .saveBtnDidTap "" .ok .ok,
    .backBtnDidTap true, .addNewHikakuBtnDidTap true .ok, .edit .groupNameTF "b",
    .saveBtnDidTap "" .ok .ok, .backBtnDidTap true]

theorem twoGroups_isSome : (app.exec App.init twoGroups).isSome = true := by decide +kernel

theorem twoGroups_rebuilt : let s := (app.exec App.init twoGroups).get twoGroups_isSome
    s.list = s.list.viewDidLoad true s.db := by
  decide +kernel

theorem list_aligned_iff_twoGroups : ∃ s t, app.Run App.init twoGroups s ∧
    app.Run s [.didSelectRowAt 1 .ok .ok, .backBtnDidTap true] t ∧
    ((∀ p u, p <+: [.didSelectRowAt 1 .ok .ok, .backBtnDidTap true] → app.Run s p u →
        u.editor = none → u.Aligned) ↔
      ∀ e ∈ [Event.didSelectRowAt 1 .ok .ok, .backBtnDidTap true], ¬ e.isDelete) := by
  have hall : (app.exec App.init (twoGroups ++
      [.didSelectRowAt 1 .ok .ok, .backBtnDidTap true])).isSome = true := by decide +kernel
  obtain ⟨s, hs, ht⟩ := EventSystem.run_append_iff.mp (EventSystem.run_get_exec hall)
  obtain rfl := hs.det (EventSystem.run_get_exec twoGroups_isSome)
  have hok : ∀ e ∈ [Event.didSelectRowAt 1 .ok .ok, .backBtnDidTap true],
      e.succeeds ∧ e ≠ .swipeDown := by
    intro e he
    rcases List.mem_cons.mp he with rfl | he
    · exact ⟨⟨⟨rfl, rfl⟩, ⟨rfl, rfl⟩⟩, Event.noConfusion⟩
    · rw [List.mem_singleton.mp he]
      exact ⟨rfl, Event.noConfusion⟩
  exact ⟨_, _, hs, ht, list_aligned_iff ⟨_, hs⟩ twoGroups_rebuilt ht hok⟩

theorem twoGroups_deleted_isSome :
    (app.exec App.init (twoGroups ++ [.confirmDelete 0 .ok])).isSome = true := by decide +kernel

theorem twoGroups_deletedTwice_isSome : (app.exec App.init
    (twoGroups ++ [.confirmDelete 0 .ok] ++ [.confirmDelete 0 .ok])).isSome = true := by
  decide +kernel

/-- After a delete of the first row the list is not the rebuilt one: its first
row shows the second group, and a delete of this row deletes nothing. -/
theorem twoGroups_misaligned : ∃ s t u, app.Run App.init twoGroups s ∧
    s.list = s.list.viewDidLoad true s.db ∧ app.Run s [.confirmDelete 0 .ok] t ∧
    t.editor = none ∧ ¬ t.Aligned ∧ t.list = ⟨["b  :  , "], [1, 2]⟩ ∧
    app.Run t [.confirmDelete 0 .ok] u ∧ u.db = t.db ∧ (u.db.itemsOf 2).length = 1 := by
  obtain ⟨t, ht, hu⟩ :=
    EventSystem.run_append_iff.mp (EventSystem.run_get_exec twoGroups_deletedTwice_isSome)
  obtain rfl := ht.det (EventSystem.run_get_exec twoGroups_deleted_isSome)
  obtain ⟨s, hs, hdelete⟩ := EventSystem.run_append_iff.mp ht
  obtain rfl := hs.det (EventSystem.run_get_exec twoGroups_isSome)
  refine ⟨_, _, _, hs, twoGroups_rebuilt, hdelete, by decide +kernel, fun h => ?_,
    by decide +kernel, hu, by decide +kernel, by decide +kernel⟩
  have hlength : ¬ ((app.exec App.init (twoGroups ++ [.confirmDelete 0 .ok])).get
      twoGroups_deleted_isSome).list.displayList.length =
    ((app.exec App.init (twoGroups ++ [.confirmDelete 0 .ok])).get
      twoGroups_deleted_isSome).list.groupIdList.length := by decide +kernel
  exact hlength h.length

/-! ### Failed deletes -/

theorem deleted_eq_self {row : ℕ} {delete : Delete} {g : ℤ} {db : Realm}
    (hfail : ¬ (Event.confirmDelete row delete).succeeds) :
    ViewController.deleted delete g db = db :=
  if_neg hfail

/-- **Failed deletes.**  From a rebuilt list, a confirmed delete whose Realm
operations do not all succeed leaves the store and the group ids as they were
and takes its row out of the texts all the same; so it never changes nothing. -/
theorem failed_delete_changes {s : App} (hfront : s.editor = none)
    (hlist : s.list = s.list.viewDidLoad true s.db) {row : ℕ}
    (hrow : row < s.list.displayList.length) {delete : Delete}
    (hfail : ¬ (Event.confirmDelete row delete).succeeds) :
    ∃ t, app.Run s [.confirmDelete row delete] t ∧ t.db = s.db ∧
      t.list = ⟨s.list.displayList.eraseIdx row, s.list.groupIdList⟩ ∧
      ¬ (t.db = s.db ∧ t.list.displayList = s.list.displayList ∧
        t.list.groupIdList = s.list.groupIdList) := by
  have hlength : s.list.displayList.length = s.list.groupIdList.length := by
    rw [hlist]
    exact ViewController.length_viewDidLoad true s.db _
  have hg : s.list.groupIdList[row]? = some s.list.groupIdList[row] :=
    List.getElem?_eq_getElem (by omega)
  have hstep := App.confirmDelete_eq hrow hg delete
  rw [deleted_eq_self hfail] at hstep
  have hnone : s.editor.isNone = true := Option.isNone_iff_eq_none.mpr hfront
  refine ⟨_, EventSystem.run_single_iff.mpr ⟨⟨hnone, hrow⟩, hstep⟩, rfl, rfl, ?_⟩
  rintro ⟨-, hkept, -⟩
  -- one text fewer than before
  have hshort : (s.list.displayList.eraseIdx row).length = s.list.displayList.length :=
    congrArg List.length hkept
  rw [List.length_eraseIdx_of_lt hrow] at hshort
  omega

/-- A delete whose transaction throws. -/
def Delete.notWritten : Delete := ⟨true, true, true, false⟩

theorem twoGroups_notWritten_isSome :
    (app.exec App.init (twoGroups ++ [.confirmDelete 0 .notWritten])).isSome = true := by
  decide +kernel

theorem failed_delete_changes_twoGroups : ∃ s t, app.Run App.init twoGroups s ∧
    app.Run s [.confirmDelete 0 .notWritten] t ∧ t.db = s.db ∧
    t.list = ⟨s.list.displayList.eraseIdx 0, s.list.groupIdList⟩ ∧
    ¬ (t.db = s.db ∧ t.list.displayList = s.list.displayList ∧
      t.list.groupIdList = s.list.groupIdList) := by
  have hrun := EventSystem.run_get_exec twoGroups_isSome
  have hrow : 0 < ((app.exec App.init twoGroups).get twoGroups_isSome).list.displayList.length := by
    decide +kernel
  have hfail : ¬ (Event.confirmDelete 0 .notWritten).succeeds := by
    rintro ⟨-, -, -, hwrite⟩
    cases hwrite
  obtain ⟨t, ht, hchanged⟩ := failed_delete_changes rfl twoGroups_rebuilt hrow hfail
  exact ⟨_, t, hrun, ht, hchanged⟩

/-- The first row is gone, its group is stored, and the row that shows the
second group stands for it. -/
theorem twoGroups_notWritten : ∃ s t, app.Run App.init twoGroups s ∧
    s.list = s.list.viewDidLoad true s.db ∧
    app.Run s [.confirmDelete 0 .notWritten] t ∧ t.db = s.db ∧
    s.list = ⟨["a  :  , ", "b  :  , "], [1, 2]⟩ ∧ t.list = ⟨["b  :  , "], [1, 2]⟩ ∧
    t.list.displayList ≠ s.list.displayList := by
  obtain ⟨s, hs, ht⟩ :=
    EventSystem.run_append_iff.mp (EventSystem.run_get_exec twoGroups_notWritten_isSome)
  obtain rfl := hs.det (EventSystem.run_get_exec twoGroups_isSome)
  exact ⟨_, _, hs, twoGroups_rebuilt, ht, by decide +kernel, by decide +kernel, by decide +kernel,
    by decide +kernel⟩

end HikakuKun
