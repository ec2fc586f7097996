/-
What holds along every run of the app.

Runs start from empty tables, and any Realm operation in them may throw.

* `store_keys` — the tables are kept as if they had keys;
* `list_complete` — a rebuilt list has one row for each stored group;
* `grid_bounds` — an editor stays within the grid there are fields for, and
  so does what it saves;
* `fresh_group_until_save` — the group of a new comparison is in no record
  until its own first save, which only adds records.
-/
import HikakuKun.ListScreen

namespace HikakuKun

/-- A new comparison whose save fails at the second column. -/
def partialSave : List Event :=
  [.addNewHikakuBtnDidTap true .ok, .saveBtnDidTap "" (.failingAt 2) .ok]

theorem partialSave_isSome : (app.exec App.init partialSave).isSome = true := by decide

/-! ### Store keys -/

/-- **Store keys.**  One item record for a group, no orphan columns, and the
columns of a group numbered from 0 in table order. -/
theorem store_keys {es : List Event} {s : App} (h : app.Run App.init es s) :
    (∀ g, (s.db.itemsOf g).length ≤ 1) ∧
    (∀ content ∈ s.db.contents, ∃ item ∈ s.db.items, item.groupId = content.groupId) ∧
    ∀ g, ∃ n ≤ 5, (s.db.contentsOf g).map CompareContentsRealm.id = List.range n ∧
      (0 < n → ∃ first last, (s.db.contentsOf g).head? = some first ∧ first.id = 0 ∧
        (s.db.contentsOf g).getLast? = some last ∧ last.id + 1 = (s.db.contentsOf g).length) := by
  have hk := (App.inv_of_run h).keys
  refine ⟨fun g => (hk g).item, fun content hc => hk.exists_item hc, ?_⟩
  · intro g
    refine ⟨_, (hk g).le_five, (hk g).numbered, ?_⟩
    intro hpos
    have hnum := Table.numbered_iff.mp (hk g).numbered
    have hlast : (s.db.contentsOf g).length - 1 < (s.db.contentsOf g).length := by omega
    refine ⟨(s.db.contentsOf g)[0], (s.db.contentsOf g)[(s.db.contentsOf g).length - 1],
      ?_, hnum 0 hpos, ?_, ?_⟩
    · rw [List.head?_eq_getElem?, List.getElem?_eq_getElem hpos]
    · rw [List.getLast?_eq_getElem?, List.getElem?_eq_getElem hlast]
    · rw [hnum _ hlast]
      omega

theorem store_keys_partialSave : ∃ s, app.Run App.init partialSave s ∧
    (∀ g, (s.db.itemsOf g).length ≤ 1) ∧
    (∀ content ∈ s.db.contents, ∃ item ∈ s.db.items, item.groupId = content.groupId) ∧
    ∀ g, ∃ n ≤ 5, (s.db.contentsOf g).map CompareContentsRealm.id = List.range n ∧
      (0 < n → ∃ first last, (s.db.contentsOf g).head? = some first ∧ first.id = 0 ∧
        (s.db.contentsOf g).getLast? = some last ∧
        last.id + 1 = (s.db.contentsOf g).length) := by
  have hrun := EventSystem.run_get_exec partialSave_isSome
  exact ⟨_, hrun, store_keys hrun⟩

/-! ### The complete list -/

/-- **The complete list.**  If the Realm opens, the list that `viewDidLoad` builds
has one row for each group of the item table, whatever it held before; no content
record belongs to another group, and a row shows the title followed by the names
of the group's columns in the order of their ids. -/
theorem list_complete {es : List Event} {s : App} (h : app.Run App.init es s)
    (list : ViewController) :
    (list.viewDidLoad true s.db).groupIdList.Nodup ∧
    (∀ g, g ∈ (list.viewDidLoad true s.db).groupIdList ↔
      ∃ item ∈ s.db.items, item.groupId = g) ∧
    (∀ content ∈ s.db.contents,
      content.groupId ∈ (list.viewDidLoad true s.db).groupIdList) ∧
    (list.viewDidLoad true s.db).displayList.length =
      (list.viewDidLoad true s.db).groupIdList.length ∧
    ∀ (i : ℕ) g, (list.viewDidLoad true s.db).groupIdList[i]? = some g →
      ∃ item ∈ s.db.items, item.groupId = g ∧
        (s.db.contentsOf g).map CompareContentsRealm.id =
          List.range (s.db.contentsOf g).length ∧
        (list.viewDidLoad true s.db).displayList[i]? =
          some (item.groupName ++ if s.db.contentsOf g = [] then "" else
            "  :  " ++ ", ".intercalate ((s.db.contentsOf g).map (·.name))) := by
  have hk := (App.inv_of_run h).keys
  have hmem : ∀ g, g ∈ s.db.items.map CompareItemRealm.groupId ↔
      ∃ item ∈ s.db.items, item.groupId = g := fun g => List.mem_map
  rw [ViewController.viewDidLoad_true]
  refine ⟨Table.nodup_map_of_group fun g => (hk g).item, hmem, ?_, by simp, ?_⟩
  · intro content hc
    exact (hmem _).mpr (hk.exists_item hc)
  · intro i g hg
    rw [List.getElem?_map] at hg
    obtain ⟨item, hitem, rfl⟩ := Option.map_eq_some_iff.mp hg
    refine ⟨item, List.mem_of_getElem? hitem, rfl, (hk item.groupId).numbered, ?_⟩
    rw [List.getElem?_map, hitem, Option.map_some, ViewController.displayText_eq]

theorem list_complete_partialSave : ∃ s, app.Run App.init partialSave s ∧
    let list := (ViewController.mk ["a"] [9]).viewDidLoad true s.db
    list.groupIdList.Nodup ∧
    (∀ g, g ∈ list.groupIdList ↔ ∃ item ∈ s.db.items, item.groupId = g) ∧
    (∀ content ∈ s.db.contents, content.groupId ∈ list.groupIdList) ∧
    list.displayList.length = list.groupIdList.length ∧
    ∀ (i : ℕ) g, list.groupIdList[i]? = some g → ∃ item ∈ s.db.items, item.groupId = g ∧
      (s.db.contentsOf g).map CompareContentsRealm.id = List.range (s.db.contentsOf g).length ∧
      list.displayList[i]? = some (item.groupName ++ if s.db.contentsOf g = [] then "" else
        "  :  " ++ ", ".intercalate ((s.db.contentsOf g).map (·.name))) := by
  have hrun := EventSystem.run_get_exec partialSave_isSome
  exact ⟨_, hrun, list_complete hrun _⟩

/-! ### Grid bounds -/

/-- **Grid bounds.** -/
theorem grid_bounds {es : List Event} {s : App} {vc : CompareMainVC}
    (h : app.Run App.init es s) (hvc : s.editor = some vc) :
    (2 ≤ vc.colNum ∧ vc.colNum ≤ 5) ∧ (1 ≤ vc.rowNum ∧ vc.rowNum ≤ 7) ∧
    (s.db.contentsOf vc.groupId).length ≤ vc.colNum ∧
    ∀ now writes reads t, app.Run s [.saveBtnDidTap now writes reads] t →
      ∀ content ∈ t.db.contents, content ∈ s.db.contents ∨
        ∃ c : Fin 5, c.val < vc.colNum ∧ content = vc.colContents now c := by
  have hinv := App.inv_of_run h
  have hb := hinv.editor vc hvc
  refine ⟨⟨hb.two_le_colNum, hb.colNum_le⟩, ⟨hb.one_le_rowNum, hb.rowNum_le⟩, hb.stored_le, ?_⟩
  intro now writes reads t hsave content hc
  obtain ⟨he, hs⟩ := EventSystem.run_single_iff.mp hsave
  cases hinv.handled he hs with
  | @save vc' _ _ _ outcome hed hdata =>
    obtain rfl : vc = vc' := Option.some_inj.mp (hvc.symm.trans hed)
    rcases CompareMainVC.saveData_store hinv.keys hb.loaded hb.two_le_colNum hb.colNum_le
      hb.stored_le hdata with heq | ⟨j, hj, hlen, hw⟩
    · left
      rwa [← heq]
    · rcases hw.mem_contents hlen hc with hold | ⟨col, hcol, heq⟩
      · exact .inl hold
      · have hfive := hb.colNum_le
        exact .inr ⟨⟨col, by omega⟩, by show col < _; omega, heq⟩

theorem grid_bounds_partialSave : ∃ s vc, app.Run App.init partialSave s ∧
    s.editor = some vc ∧ (2 ≤ vc.colNum ∧ vc.colNum ≤ 5) ∧ (1 ≤ vc.rowNum ∧ vc.rowNum ≤ 7) ∧
    (s.db.contentsOf vc.groupId).length ≤ vc.colNum ∧
    ∀ now writes reads t, app.Run s [.saveBtnDidTap now writes reads] t →
      ∀ content ∈ t.db.contents, content ∈ s.db.contents ∨
        ∃ c : Fin 5, c.val < vc.colNum ∧ content = vc.colContents now c := by
  have hrun := EventSystem.run_get_exec partialSave_isSome
  have hed : ((app.exec App.init partialSave).get partialSave_isSome).editor.isSome = true := by
    decide
  obtain ⟨vc, hvc⟩ := Option.isSome_iff_exists.mp hed
  exact ⟨_, vc, hrun, hvc, grid_bounds hrun hvc⟩

/-! ### Fresh group ids -/

/-- The events that neither save nor dismiss the editor in front. -/
def Event.keepsUnsaved : Event → Prop
  | saveBtnDidTap _ _ _ | backBtnDidTap _ | swipeDown | launch _ => False
  | _ => True

/-- An editor on `g` is in front, and no record has group `g`. -/
def App.Unsaved (g : ℤ) (s : App) : Prop :=
  (∃ vc ∈ s.editor, vc.groupId = g) ∧ s.db.itemsOf g = [] ∧ s.db.contentsOf g = []

theorem App.Unsaved.step {g : ℤ} {s s' : App} {e : Event} (h : s.Unsaved g) (hinv : s.Inv)
    (hkeep : e.keepsUnsaved) (he : app.enabled s e) (hs : app.step s e = some s') :
    s'.Unsaved g := by
  obtain ⟨⟨vc, hvc, rfl⟩, hitems, hcontents⟩ := h
  rw [Option.mem_def] at hvc
  have hbusy : s.editor ≠ none := by
    rw [hvc]
    exact Option.some_ne_none vc
  cases hinv.handled he hs with
  | notPresented reads => exact absurd (Option.isNone_iff_eq_none.mp he) hbusy
  | addNew hed hmax hreads => exact absurd hed hbusy
  | select hed hrow hg hreads => exact absurd hed hbusy
  | delete hed hrow hg => exact absurd hed hbusy
  | edit hed hf =>
    cases hvc.symm.trans hed
    exact ⟨⟨_, rfl, rfl⟩, hitems, hcontents⟩
  | addName hed hbtn =>
    cases hvc.symm.trans hed
    exact ⟨⟨_, rfl, rfl⟩, hitems, hcontents⟩
  | addItem hed hbtn =>
    cases hvc.symm.trans hed
    exact ⟨⟨_, rfl, rfl⟩, hitems, hcontents⟩
  | save hed hsave => exact hkeep.elim
  | back => exact hkeep.elim
  | swipe => exact hkeep.elim
  | layout => exact ⟨⟨vc, hvc, rfl⟩, hitems, hcontents⟩
  | launch => exact hkeep.elim

/-- A new comparison gets a group id that is in no record. -/
theorem App.Inv.unsaved_of_addNew {s t : App} {opens : Bool} {reads : Reads} {vc : CompareMainVC}
    (hinv : s.Inv) (he : app.enabled s (.addNewHikakuBtnDidTap opens reads))
    (hs : app.step s (.addNewHikakuBtnDidTap opens reads) = some t) (hvc : t.editor = some vc) :
    t.Unsaved vc.groupId := by
  cases hinv.handled he hs with
  | notPresented reads =>
    rw [Option.isNone_iff_eq_none.mp he] at hvc
    cases hvc
  | @addNew max reads hed hmax hreads =>
    obtain rfl := Option.some_inj.mp hvc
    have hitems : s.db.itemsOf (max + 1) = [] := by
      refine Table.group_eq_nil_iff.mpr ?_
      intro item hi hg
      have := CompareItemRealm.le_getMaxGroupId hmax hi
      omega
    -- the content table is not looked at: it has no orphans
    exact ⟨⟨_, rfl, rfl⟩, hitems, (hinv.keys _).contentsOf_eq_nil hitems⟩

/-- **Fresh group ids.**  In every state `u` between the presentation of an
editor by the + of the list screen and its first save, the editor's group is in
no record; a save made there takes the insert branch and only adds records. -/
theorem fresh_group_until_save {es fs : List Event} {s t u : App} {opens : Bool} {reads : Reads}
    {vc₀ : CompareMainVC} (hes : app.Run App.init es s)
    (hadd : app.Run s [.addNewHikakuBtnDidTap opens reads] t) (hvc₀ : t.editor = some vc₀)
    (hfs : app.Run t fs u) (hkeep : ∀ e ∈ fs, e.keepsUnsaved) :
    ∃ vc, u.editor = some vc ∧ vc.groupId = vc₀.groupId ∧
      (∀ item ∈ u.db.items, item.groupId ≠ vc.groupId) ∧
      (∀ content ∈ u.db.contents, content.groupId ≠ vc.groupId) ∧
      ∀ now writes reads, ∃ v, app.Run u [.saveBtnDidTap now writes reads] v ∧
        vc.saveData now writes u.db = some (vc.insertData now writes u.db) ∧
        ∃ items contents, v.db.items = u.db.items ++ items ∧
          v.db.contents = u.db.contents ++ contents ∧
          (∀ item ∈ items, item.groupId = vc.groupId) ∧
          ∀ content ∈ contents, content.groupId = vc.groupId := by
  have hinv := App.inv_of_run hes
  obtain ⟨he, hs⟩ := EventSystem.run_single_iff.mp hadd
  have hboth : u.Inv ∧ u.Unsaved vc₀.groupId :=
    hfs.invariant_on (I := fun s => s.Inv ∧ s.Unsaved vc₀.groupId)
      (fun ⟨hi, hun⟩ hk he hs => ⟨hi.step he hs, hun.step hi hk he hs⟩) hkeep
      ⟨hinv.step he hs, hinv.unsaved_of_addNew he hs hvc₀⟩
  obtain ⟨huinv, ⟨vc, hvc, hg⟩, hitems, hcontents⟩ := hboth
  rw [← hg] at hitems hcontents
  have hb := huinv.editor vc hvc
  refine ⟨vc, hvc, hg, Table.group_eq_nil_iff.mp hitems, Table.group_eq_nil_iff.mp hcontents, ?_⟩
  intro now writes reads
  have hdata : vc.saveData now writes u.db = some (vc.insertData now writes u.db) :=
    CompareMainVC.saveData_eq_insertData now writes hb.loaded hitems
  refine ⟨_, huinv.run_save hvc hdata reads, hdata, ?_⟩
  exact CompareMainVC.insertData_extends vc now writes u.db

/-- The last of two comparisons is deleted; its id is handed out again. -/
def reusedGroupId : List Event := twoGroups ++ [.confirmDelete 1 .ok]

theorem reusedGroupId_added_isSome : (app.exec App.init
    (reusedGroupId ++ [.addNewHikakuBtnDidTap true .ok])).isSome = true := by decide +kernel

theorem reusedGroupId_edited_isSome : (app.exec App.init (reusedGroupId ++
    [.addNewHikakuBtnDidTap true .ok] ++ [.edit .groupNameTF "c"])).isSome = true := by
  decide +kernel

theorem fresh_group_until_save_reusedGroupId : ∃ r s t u vc,
    app.Run App.init twoGroups r ∧ r.db.itemsOf 2 ≠ [] ∧ app.Run r [.confirmDelete 1 .ok] s ∧
    app.Run s [.addNewHikakuBtnDidTap true .ok] t ∧
    app.Run t [.edit .groupNameTF "c"] u ∧ u.editor = some vc ∧ vc.groupId = 2 ∧
    u.db.itemsOf 1 ≠ [] ∧
    (∀ item ∈ u.db.items, item.groupId ≠ vc.groupId) ∧
    (∀ content ∈ u.db.contents, content.groupId ≠ vc.groupId) ∧
    ∀ now writes reads, ∃ v, app.Run u [.saveBtnDidTap now writes reads] v ∧
      vc.saveData now writes u.db = some (vc.insertData now writes u.db) ∧
      ∃ items contents, v.db.items = u.db.items ++ items ∧
        v.db.contents = u.db.contents ++ contents ∧
        (∀ item ∈ items, item.groupId = vc.groupId) ∧
        ∀ content ∈ contents, content.groupId = vc.groupId := by
  obtain ⟨t, ht, hfs⟩ :=
    EventSystem.run_append_iff.mp (EventSystem.run_get_exec reusedGroupId_edited_isSome)
  obtain rfl := ht.det (EventSystem.run_get_exec reusedGroupId_added_isSome)
  obtain ⟨s, hs, hadd⟩ := EventSystem.run_append_iff.mp ht
  obtain ⟨r, hr, hdelete⟩ := EventSystem.run_append_iff.mp hs
  obtain rfl := hr.det (EventSystem.run_get_exec twoGroups_isSome)
  have hed : ((app.exec App.init (reusedGroupId ++ [.addNewHikakuBtnDidTap true .ok])).get
      reusedGroupId_added_isSome).editor.map (·.groupId) = some 2 := by
    decide +kernel
  obtain ⟨vc₀, hvc₀, hg₀⟩ := Option.map_eq_some_iff.mp hed
  have hkeep : ∀ e ∈ [Event.edit .groupNameTF "c"], e.keepsUnsaved := by
    intro e he
    rw [List.mem_singleton.mp he]
    trivial
  obtain ⟨vc, hvc, hg, hfresh⟩ := fresh_group_until_save hs hadd hvc₀ hfs hkeep
  exact ⟨_, s, _, _, vc, hr, by decide +kernel, hdelete, hadd, hfs, hvc, hg.trans hg₀,
    by decide +kernel, hfresh⟩

end HikakuKun
