/-
What a list shows that was not rebuilt.

A delete takes a row out of the texts and leaves the group ids alone.  Between
two times the list is built, a row shows the text of the row it was when the
list was built, and opens and deletes the group that is behind its present
position.

* `list_of_run` — the arrays of the list, any number of deletes later;
* `stale_row_iff` — exactly which rows still stand for what they show.
-/
import HikakuKun.Erasures
import HikakuKun.ListScreen

namespace HikakuKun

namespace Event

/-- The events that build the list again. -/
def rebuildsList : Event → Prop
  | backBtnDidTap _ | launch _ => True
  | _ => False

/-- The row that the event deletes. -/
def deletedRow : Event → Option ℕ
  | confirmDelete row _ => some row
  | _ => none

end Event

/-- The rows that were deleted, in order, each by its position at that time. -/
def deletedRows (es : List Event) : List ℕ := es.filterMap Event.deletedRow

section Stale

variable {s s' t : App} {e : Event} {es : List Event}

/-- The arrays of the list after one event. -/
theorem App.Inv.list_step (hinv : s.Inv) (hlist : ¬ e.rebuildsList) (he : app.enabled s e)
    (hs : app.step s e = some s') :
    s'.list.groupIdList = s.list.groupIdList ∧
    s'.list.displayList = Erasures.eraseAll (deletedRows [e]) s.list.displayList ∧
    s'.list.displayList.length + (deletedRows [e]).length = s.list.displayList.length := by
  cases hinv.handled he hs with
  | notPresented reads => exact ⟨rfl, rfl, rfl⟩
  | addNew hed hmax hreads => exact ⟨rfl, rfl, rfl⟩
  | select hed hrow hg hreads => exact ⟨rfl, rfl, rfl⟩
  | edit hed hf => exact ⟨rfl, rfl, rfl⟩
  | addName hed hbtn => exact ⟨rfl, rfl, rfl⟩
  | addItem hed hbtn => exact ⟨rfl, rfl, rfl⟩
  | save hed hsave => exact ⟨rfl, rfl, rfl⟩
  | swipe => exact ⟨rfl, rfl, rfl⟩
  | layout => exact ⟨rfl, rfl, rfl⟩
  | @delete row g delete hed hrow hg =>
    refine ⟨rfl, rfl, ?_⟩
    show (s.list.displayList.eraseIdx row).length + 1 = s.list.displayList.length
    rw [List.length_eraseIdx_of_lt hrow]
    omega
  | back => exact absurd trivial hlist
  | launch => exact absurd trivial hlist

theorem deletedRows_cons (e : Event) (es : List Event) :
    deletedRows (e :: es) = deletedRows [e] ++ deletedRows es := by
  show List.filterMap _ ([e] ++ es) = _
  rw [List.filterMap_append]
  rfl

/-- The arrays of the list after any number of events: as many texts fewer as
rows were deleted, and the group ids as they were. -/
theorem App.Inv.list_of_run (hinv : s.Inv) (hrun : app.Run s es t)
    (hes : ∀ e ∈ es, ¬ e.rebuildsList) :
    t.list.groupIdList = s.list.groupIdList ∧
    t.list.displayList = Erasures.eraseAll (deletedRows es) s.list.displayList ∧
    t.list.displayList.length + (deletedRows es).length = s.list.displayList.length := by
  induction hrun with
  | nil s => exact ⟨rfl, rfl, rfl⟩
  | @cons s s' t e es he hs _ ih =>
    obtain ⟨hids, htexts, hlength⟩ := hinv.list_step (hes e List.mem_cons_self) he hs
    obtain ⟨hids', htexts', hlength'⟩ :=
      ih (hinv.step he hs) fun e' he' => hes e' (List.mem_cons_of_mem _ he')
    refine ⟨hids'.trans hids, ?_, ?_⟩
    · rw [htexts', htexts, deletedRows_cons e es, Erasures.eraseAll_append]
    · rw [deletedRows_cons e es, List.length_append]
      omega

/-- The group behind a row is the one that the row shows exactly when all rows
that were deleted were below it. -/
theorem origin_groupId_iff (hs : Reachable s)
    (hlist : s.list = s.list.viewDidLoad true s.db) {rows : List ℕ} {row : ℕ} {g : ℤ}
    (hg : s.list.groupIdList[row]? = some g) :
    s.list.groupIdList[Erasures.origin rows row]? = some g ↔ ∀ deleted ∈ rows, row < deleted := by
  have hnodup : s.list.groupIdList.Nodup := by
    rw [hlist, ViewController.viewDidLoad_true]
    exact Table.nodup_map_of_group fun g => (hs.inv.keys g).item
  have hlt : row < s.list.groupIdList.length := (List.getElem?_eq_some_iff.mp hg).1
  rw [← hg, eq_comm, List.getElem?_inj hlt hnodup, eq_comm, Erasures.origin_eq_iff]

/-- **Stale rows.**  Along every run from a freshly built list that does not
build it again, whatever fails, the list loses one text for each delete and no
group id.  A row shows what its origin showed, and opens, and deletes, the
group of its position; this is the group it shows exactly when all deleted
rows were below it. -/
theorem stale_row_iff (hs : Reachable s) (hlist : s.list = s.list.viewDidLoad true s.db)
    (hrun : app.Run s es t) (hes : ∀ e ∈ es, ¬ e.rebuildsList) :
    t.list.groupIdList = s.list.groupIdList ∧
    t.list.displayList.length + (deletedRows es).length = s.list.displayList.length ∧
    (∀ row, t.list.displayList[row]? =
      s.list.displayList[Erasures.origin (deletedRows es) row]?) ∧
    (∀ row select reads u vc, app.Run t [.didSelectRowAt row select reads] u →
      u.editor = some vc → s.list.groupIdList[row]? = some vc.groupId ∧
      (s.list.groupIdList[Erasures.origin (deletedRows es) row]? = some vc.groupId ↔
        ∀ deleted ∈ deletedRows es, row < deleted)) ∧
    ∀ row delete u, app.Run t [.confirmDelete row delete] u →
      (Event.confirmDelete row delete).succeeds →
      ∃ g, s.list.groupIdList[row]? = some g ∧ u.db = ViewController.deleteGroup g t.db ∧
      (s.list.groupIdList[Erasures.origin (deletedRows es) row]? = some g ↔
        ∀ deleted ∈ deletedRows es, row < deleted) := by
  obtain ⟨hids, htexts, hlength⟩ := hs.inv.list_of_run hrun hes
  have htinv : t.Inv := hs.inv.of_run hrun
  refine ⟨hids, hlength, fun row => ?_, ?_, ?_⟩
  · rw [htexts]
    exact Erasures.getElem?_eraseAll _
  · intro row select reads u vc hopen hvc
    obtain ⟨he, hstep⟩ := EventSystem.run_single_iff.mp hopen
    cases htinv.handled he hstep with
    | @select _ g _ _ hed hrow hg hreads =>
      obtain rfl := Option.some_inj.mp hvc
      have hg : s.list.groupIdList[row]? = some g := by rwa [← hids]
      exact ⟨hg, origin_groupId_iff hs hlist hg⟩
  · intro row delete u hdelete hok
    obtain ⟨he, hstep⟩ := EventSystem.run_single_iff.mp hdelete
    cases htinv.handled he hstep with
    | @delete _ g _ hed hrow hg =>
      have hg : s.list.groupIdList[row]? = some g := by rwa [← hids]
      exact ⟨g, hg, if_pos hok, origin_groupId_iff hs hlist hg⟩

end Stale

theorem stale_row_iff_twoGroups : ∃ s t, app.Run App.init twoGroups s ∧
    app.Run s [.confirmDelete 0 .ok] t ∧ t.list.groupIdList = s.list.groupIdList ∧
    t.list.displayList.length + 1 = s.list.displayList.length ∧
    (∀ row, t.list.displayList[row]? = s.list.displayList[Erasures.origin [0] row]?) ∧
    (∀ row select reads u vc, app.Run t [.didSelectRowAt row select reads] u →
      u.editor = some vc → s.list.groupIdList[row]? = some vc.groupId ∧
      (s.list.groupIdList[Erasures.origin [0] row]? = some vc.groupId ↔
        ∀ deleted ∈ [0], row < deleted)) ∧
    ∀ row delete u, app.Run t [.confirmDelete row delete] u →
      (Event.confirmDelete row delete).succeeds →
      ∃ g, s.list.groupIdList[row]? = some g ∧ u.db = ViewController.deleteGroup g t.db ∧
      (s.list.groupIdList[Erasures.origin [0] row]? = some g ↔ ∀ deleted ∈ [0], row < deleted) := by
  obtain ⟨s, hs, ht⟩ :=
    EventSystem.run_append_iff.mp (EventSystem.run_get_exec twoGroups_deleted_isSome)
  obtain rfl := hs.det (EventSystem.run_get_exec twoGroups_isSome)
  have hes : ∀ e ∈ [Event.confirmDelete 0 .ok], ¬ e.rebuildsList := by
    intro e he
    rw [List.mem_singleton.mp he]
    exact id
  exact ⟨_, _, hs, ht, stale_row_iff ⟨_, hs⟩ twoGroups_rebuilt ht hes⟩

end HikakuKun
