/-
The invariant of the app.

No guard in a handler enforces the limits of the grid, and no key those of the
store.  They follow together: from which buttons are attached, from the
insert-or-update test, and from an editor never showing fewer columns than its
group has stored.

* `Inv.handled` — what each event does in a state that satisfies the
  invariant, unless it traps;
* `Inv.step`, `inv_of_run` — every step preserves the invariant, so it holds in
  every reachable state.
-/
import HikakuKun.App
import HikakuKun.BackupRestore
import HikakuKun.ListSpec
import HikakuKun.SaveSpec

namespace HikakuKun

namespace CompareMainVC

/-- What holds of a presented editor. -/
structure Bounded (db : Realm) (vc : CompareMainVC) : Prop where
  loaded : vc.Loaded
  two_le_colNum : 2 ≤ vc.colNum
  colNum_le : vc.colNum ≤ 5
  one_le_rowNum : 1 ≤ vc.rowNum
  rowNum_le : vc.rowNum ≤ 7
  stored_le : (db.contentsOf vc.groupId).length ≤ vc.colNum
  nameBtn : vc.addNewNameBtn = true → vc.colNum ≤ 4
  itemBtn : vc.addNewItemBtn = true → vc.rowNum ≤ 6

/-- An editor as the list screen makes it. -/
def fresh (groupId : ℤ) (rowNum : ℕ) : CompareMainVC := { groupId := groupId, rowNum := rowNum }

variable {db : Realm} {vc : CompareMainVC} {reads : Reads} {width : ℚ}

/-! ### Loading -/

theorem loadedColNum_eq (h : (db.contentsOf vc.groupId).length ≤ vc.colNum) :
    vc.loadedColNum reads db = vc.colNum := by
  unfold loadedColNum
  split
  · omega
  · rfl

theorem loadedColNum_le (hk : db.Keys) (h : vc.colNum ≤ 5) : vc.loadedColNum reads db ≤ 5 := by
  have := (hk vc.groupId).le_five
  unfold loadedColNum
  split <;> omega

/-- A `viewDidLoad` that reads the store, or had read it before, ends within
the bounds. -/
theorem redisplayed_bounded (hk : db.Keys) (htwo : 2 ≤ vc.colNum) (hfive : vc.colNum ≤ 5)
    (hrow : 1 ≤ vc.rowNum ∧ vc.rowNum ≤ 7)
    (hstored : reads.succeed ∨ (db.contentsOf vc.groupId).length ≤ vc.colNum)
    (hbtn : vc.addNewNameBtn = true →
      vc.colNum ≤ 4 ∧ (db.contentsOf vc.groupId).length ≤ vc.colNum) :
    (vc.redisplayed reads width db).Bounded db := by
  have hcol : 2 ≤ vc.loadedColNum reads db := by
    unfold loadedColNum
    split <;> omega
  refine ⟨⟨rfl, rfl⟩, hcol, loadedColNum_le hk hfive, hrow.1, hrow.2, ?_, ?_, ?_⟩
  · show (db.contentsOf vc.groupId).length ≤ vc.loadedColNum reads db
    rcases hstored with hreads | hle
    · by_cases hlen : 1 < (db.contentsOf vc.groupId).length
      · rw [loadedColNum, if_pos ⟨hreads, hlen⟩]
        exact Nat.le_max_right _ _
      · omega
    · rwa [loadedColNum_eq hle]
  -- the button was attached before, or is added by this load
  · show (vc.addNewNameBtn || addsNewNameBtn width (vc.loadedColNum reads db)) = true → _
    rw [Bool.or_eq_true]
    rintro (hold | hadd)
    · obtain ⟨hfour, hle⟩ := hbtn hold
      show vc.loadedColNum reads db ≤ 4
      rwa [loadedColNum_eq hle]
    · show vc.loadedColNum reads db ≤ 4
      rcases of_decide_eq_true hadd with ⟨-, h⟩ | ⟨-, h⟩ <;> omega
  · exact of_decide_eq_true

theorem Bounded.viewDidLoad_eq (h : vc.Bounded db) (hk : db.Keys) (reads : Reads) (width : ℚ) :
    vc.viewDidLoad reads width db = some (vc.redisplayed reads width db) :=
  CompareMainVC.viewDidLoad_eq (hk vc.groupId).numbered (.inl h.loaded)
    (by have := h.two_le_colNum; omega) (loadedColNum_le hk h.colNum_le)

theorem Bounded.redisplayed (h : vc.Bounded db) (hk : db.Keys) (reads : Reads) (width : ℚ) :
    (vc.redisplayed reads width db).Bounded db :=
  redisplayed_bounded hk h.two_le_colNum h.colNum_le ⟨h.one_le_rowNum, h.rowNum_le⟩
    (.inr h.stored_le) fun hbtn => ⟨h.nameBtn hbtn, h.stored_le⟩

/-! ### The + taps -/

/-- A + tap on `vc`, written for the editor with its new numbers. -/
theorem tapped_bounded (hload : vc.Loaded) (hk : db.Keys) (htwo : 2 ≤ vc.colNum)
    (hfive : vc.colNum ≤ 5) (hrow : 1 ≤ vc.rowNum ∧ vc.rowNum ≤ 7)
    (hle : (db.contentsOf vc.groupId).length ≤ vc.colNum) :
    vc.redisplay reads width db = some (vc.tapped reads width db) ∧
      (vc.tapped reads width db).Bounded db := by
  have hview : (vc.loadView.redisplayed reads width db).Bounded db :=
    redisplayed_bounded hk htwo hfive hrow (.inr hle) fun h => by cases h
  refine ⟨redisplay_eq (hk vc.groupId).numbered hload (by omega) (loadedColNum_le hk hfive), ?_⟩
  -- the texts are no part of the bounds
  exact ⟨⟨rfl, rfl⟩, hview.two_le_colNum, hview.colNum_le, hview.one_le_rowNum,
    hview.rowNum_le, hview.stored_le, hview.nameBtn, hview.itemBtn⟩

theorem Bounded.addNewNameBtnDidTap (h : vc.Bounded db) (hk : db.Keys)
    (hbtn : vc.addNewNameBtn = true) (reads : Reads) (width : ℚ) :
    vc.addNewNameBtnDidTap reads width db =
        some ({ vc with colNum := vc.colNum + 1 }.tapped reads width db) ∧
      ({ vc with colNum := vc.colNum + 1 }.tapped reads width db).Bounded db := by
  have hfour := h.nameBtn hbtn
  have hstored := h.stored_le
  exact tapped_bounded ⟨h.loaded.items, h.loaded.contents⟩ hk (Nat.le_succ_of_le h.two_le_colNum)
    (Nat.succ_le_succ hfour) ⟨h.one_le_rowNum, h.rowNum_le⟩ (Nat.le_succ_of_le hstored)

theorem Bounded.addNewItemBtnDidTap (h : vc.Bounded db) (hk : db.Keys)
    (hbtn : vc.addNewItemBtn = true) (reads : Reads) (width : ℚ) :
    vc.addNewItemBtnDidTap reads width db =
        some ({ vc with rowNum := vc.rowNum + 1 }.tapped reads width db) ∧
      ({ vc with rowNum := vc.rowNum + 1 }.tapped reads width db).Bounded db := by
  have hsix := h.itemBtn hbtn
  exact tapped_bounded ⟨h.loaded.items, h.loaded.contents⟩ hk h.two_le_colNum h.colNum_le
    ⟨Nat.le_add_left 1 _, Nat.succ_le_succ hsix⟩ h.stored_le

/-! ### Saving -/

variable {now : String} {writes : Writes} {outcome : Except Realm Realm}

/-- What a save leaves behind keeps the keys and the bounds. -/
theorem Bounded.saveData (h : vc.Bounded db) (hk : db.Keys)
    (hsave : vc.saveData now writes db = some outcome) :
    (Throwing.store outcome).Keys ∧ vc.Bounded (Throwing.store outcome) := by
  rcases saveData_store hk h.loaded h.two_le_colNum h.colNum_le h.stored_le hsave with
    heq | ⟨j, hj, -, hw⟩
  · rw [heq]
    exact ⟨hk, h⟩
  · refine ⟨hw.keys hk (hj.trans h.colNum_le), h.loaded, h.two_le_colNum, h.colNum_le,
      h.one_le_rowNum, h.rowNum_le, ?_, h.nameBtn, h.itemBtn⟩
    have := h.stored_le
    rw [hw.length]
    omega

theorem Bounded.saveBtnDidTap (h : vc.Bounded db) (hk : db.Keys) (reads : Reads) (width : ℚ) :
    vc.saveBtnDidTap now writes reads width db = (vc.saveData now writes db).map fun outcome =>
      (Throwing.store outcome, vc.redisplayed reads width (Throwing.store outcome)) := by
  rw [CompareMainVC.saveBtnDidTap]
  cases hsave : vc.saveData now writes db with
  | none => rfl
  | some outcome =>
    obtain ⟨hk', h'⟩ := h.saveData hk hsave
    simp [h'.viewDidLoad_eq hk']

end CompareMainVC

namespace App

open CompareMainVC (fresh)

/-- The invariant of the app. -/
structure Inv (s : App) : Prop where
  keys : s.db.Keys
  rows : s.list.displayList.length ≤ s.list.groupIdList.length
  editor : ∀ vc ∈ s.editor, vc.Bounded s.db

variable {s s' : App} {e : Event}

theorem inv_init : init.Inv := ⟨Realm.keys_empty, le_rfl, fun _ h => by cases h⟩

/-- `s` with editor `vc` in front. -/
def showing (s : App) (vc : CompareMainVC) : App := { s with editor := some vc }

@[simp] theorem db_showing (vc : CompareMainVC) : (s.showing vc).db = s.db := rfl

@[simp] theorem editor_showing (vc : CompareMainVC) : (s.showing vc).editor = some vc := rfl

theorem Inv.showing (h : s.Inv) {vc : CompareMainVC} (hvc : vc.Bounded s.db) :
    (s.showing vc).Inv :=
  ⟨h.keys, h.rows, fun vc' hvc' => by rwa [← Option.some_inj.mp hvc']⟩

/-! ### What an event does -/

theorem app_step (s : App) (e : Event) : app.step s e = s.step e := rfl

/-- A first load: the store is read, or the results that were not loaded are
unwrapped. -/
theorem viewDidLoad_fresh {db : Realm} (hk : db.Keys) (g : ℤ) (rowNum : ℕ) (reads : Reads)
    (width : ℚ) :
    (fresh g rowNum).loadView.viewDidLoad reads width db = if reads.items ∧ reads.contents
      then some ((fresh g rowNum).redisplayed reads width db) else none := by
  have hnum := (hk g).numbered
  split
  case isTrue hreads =>
    exact CompareMainVC.viewDidLoad_eq hnum (.inr hreads) (Nat.le_succ 1)
      (CompareMainVC.loadedColNum_le hk (by omega : 2 ≤ 5))
  case isFalse hreads => exact CompareMainVC.viewDidLoad_eq_none hnum rfl rfl hreads

theorem present_eq (hk : s.db.Keys) (g : ℤ) (rowNum : ℕ) (reads : Reads) :
    s.present (fresh g rowNum) reads = if reads.items ∧ reads.contents then
        some (s.showing ((fresh g rowNum).redisplayed reads s.width s.db))
      else none := by
  rw [present, viewDidLoad_fresh hk]
  split <;> rfl

theorem fresh_bounded {db : Realm} {reads : Reads} (hk : db.Keys) (g : ℤ) {rowNum : ℕ}
    (hrow : 1 ≤ rowNum ∧ rowNum ≤ 7) (hreads : reads.succeed) (width : ℚ) :
    ((fresh g rowNum).redisplayed reads width db).Bounded db :=
  CompareMainVC.redisplayed_bounded hk le_rfl (by omega : 2 ≤ 5) hrow (.inl hreads)
    fun h => by cases h

/-- The row number the list screen hands to an editor on group `g`. -/
def selectedRowNum (db : Realm) (g : ℤ) (select : Reads) : ℕ :=
  if select.items ∧ select.contents then
    ViewController.idNum (db.itemsOf g) (db.contentsOf g)
  else 1

theorem selectedRowNum_mem {db : Realm} {g : ℤ} {select : Reads} :
    1 ≤ selectedRowNum db g select ∧ selectedRowNum db g select ≤ 7 := by
  unfold selectedRowNum
  split
  · exact ⟨ViewController.one_le_idNum, ViewController.idNum_le_seven⟩
  · omega

theorem addNewHikakuBtnDidTap_eq (h : s.Inv) {opens : Bool} {reads : Reads} :
    s.step (.addNewHikakuBtnDidTap opens reads) =
      match CompareItemRealm.getMaxGroupId opens s.db with
      | .error _ => some s
      | .ok max => if reads.items ∧ reads.contents then
          some (s.showing ((fresh (max + 1) 1).redisplayed reads s.width s.db))
        else none := by
  rw [step, ViewController.addNewHikaku]
  cases CompareItemRealm.getMaxGroupId opens s.db with
  | error => rfl
  | ok max => exact present_eq h.keys (max + 1) 1 reads

theorem didSelectRowAt_eq (h : s.Inv) {row : ℕ} {g : ℤ} (hg : s.list.groupIdList[row]? = some g)
    {select reads : Reads} :
    s.step (.didSelectRowAt row select reads) = if reads.items ∧ reads.contents then
        some (s.showing
          ((fresh g (selectedRowNum s.db g select)).redisplayed reads s.width s.db))
      else none := by
  rw [step, ViewController.didSelectRowAt_eq hg, Option.bind_some]
  exact present_eq h.keys g _ reads

/-- A row on screen has a group id behind it. -/
theorem Inv.groupId_of_row (h : s.Inv) {row : ℕ} (hrow : row < s.list.displayList.length) :
    ∃ g, s.list.groupIdList[row]? = some g :=
  ⟨_, List.getElem?_eq_getElem (Nat.lt_of_lt_of_le hrow h.rows)⟩

theorem confirmDelete_eq {row : ℕ} {g : ℤ} (hrow : row < s.list.displayList.length)
    (hg : s.list.groupIdList[row]? = some g) (delete : Delete) :
    s.step (.confirmDelete row delete) = some { s with
      db := ViewController.deleted delete g s.db
      list := { s.list with displayList := s.list.displayList.eraseIdx row } } := by
  rw [step, ViewController.yesAction_eq hrow hg]
  rfl

theorem edit_eq {vc : CompareMainVC} (hed : s.editor = some vc) (field : Field) (text : String) :
    s.step (.edit field text) = some (s.showing (vc.edit field text)) := by
  rw [step, inEditor, hed]
  rfl

theorem addNewNameBtnDidTap_eq (h : s.Inv) {vc : CompareMainVC} (hed : s.editor = some vc)
    (hbtn : vc.addNewNameBtn = true) (reads : Reads) :
    s.step (.addNewNameBtnDidTap reads) =
      some (s.showing ({ vc with colNum := vc.colNum + 1 }.tapped reads s.width s.db)) := by
  obtain ⟨htap, -⟩ := (h.editor vc hed).addNewNameBtnDidTap h.keys hbtn reads s.width
  rw [step, inEditor, hed, Option.bind_some, htap]
  rfl

theorem addNewItemBtnDidTap_eq (h : s.Inv) {vc : CompareMainVC} (hed : s.editor = some vc)
    (hbtn : vc.addNewItemBtn = true) (reads : Reads) :
    s.step (.addNewItemBtnDidTap reads) =
      some (s.showing ({ vc with rowNum := vc.rowNum + 1 }.tapped reads s.width s.db)) := by
  obtain ⟨htap, -⟩ := (h.editor vc hed).addNewItemBtnDidTap h.keys hbtn reads s.width
  rw [step, inEditor, hed, Option.bind_some, htap]
  rfl

theorem saveBtnDidTap_eq (h : s.Inv) {vc : CompareMainVC} (hed : s.editor = some vc)
    (now : String) (writes : Writes) (reads : Reads) :
    s.step (.saveBtnDidTap now writes reads) = (vc.saveData now writes s.db).map fun outcome =>
      { s with db := Throwing.store outcome }.showing
        (vc.redisplayed reads s.width (Throwing.store outcome)) := by
  rw [step, hed, Option.bind_some, (h.editor vc hed).saveBtnDidTap h.keys, Option.map_map]
  rfl

/-- A save that does not trap, as a run. -/
theorem Inv.run_save (h : s.Inv) {vc : CompareMainVC} (hed : s.editor = some vc) {now : String}
    {writes : Writes} {outcome : Except Realm Realm}
    (hsave : vc.saveData now writes s.db = some outcome) (reads : Reads) :
    app.Run s [.saveBtnDidTap now writes reads] ({ s with db := Throwing.store outcome }.showing
      (vc.redisplayed reads s.width (Throwing.store outcome))) := by
  have hstep := saveBtnDidTap_eq h hed now writes reads
  rw [hsave, Option.map_some] at hstep
  exact EventSystem.run_single_iff.mpr ⟨Option.isSome_iff_exists.mpr ⟨vc, hed⟩, hstep⟩

/-- With two columns stored under every item record, a save does not trap. -/
theorem Inv.exists_saveData (h : s.Inv) {vc : CompareMainVC} (hed : s.editor = some vc)
    (htwo : s.db.itemsOf vc.groupId ≠ [] → 2 ≤ (s.db.contentsOf vc.groupId).length)
    (now : String) (writes : Writes) : ∃ outcome, vc.saveData now writes s.db = some outcome := by
  have hb := h.editor vc hed
  rw [← Option.ne_none_iff_exists', Ne,
    CompareMainVC.saveData_eq_none_iff h.keys hb.loaded hb.two_le_colNum hb.colNum_le]
  rintro ⟨hitems, hlen, -⟩
  have := htwo hitems
  omega

/-- What an event that can happen does in a state of the invariant, unless it
traps: one case for each way a handler ends. -/
inductive Handled (s : App) : Event → App → Prop
  | notPresented (reads : Reads) : Handled s (.addNewHikakuBtnDidTap false reads) s
  | addNew {max : ℤ} {reads : Reads} (hed : s.editor = none)
      (hmax : CompareItemRealm.getMaxGroupId true s.db = .ok max) (hreads : reads.succeed) :
      Handled s (.addNewHikakuBtnDidTap true reads)
        (s.showing ((fresh (max + 1) 1).redisplayed reads s.width s.db))
  | select {row : ℕ} {g : ℤ} {select reads : Reads} (hed : s.editor = none)
      (hrow : row < s.list.displayList.length) (hg : s.list.groupIdList[row]? = some g)
      (hreads : reads.succeed) :
      Handled s (.didSelectRowAt row select reads)
        (s.showing ((fresh g (selectedRowNum s.db g select)).redisplayed reads s.width s.db))
  | delete {row : ℕ} {g : ℤ} {delete : Delete} (hed : s.editor = none)
      (hrow : row < s.list.displayList.length) (hg : s.list.groupIdList[row]? = some g) :
      Handled s (.confirmDelete row delete) { s with
        db := ViewController.deleted delete g s.db
        list := { s.list with displayList := s.list.displayList.eraseIdx row } }
  | edit {vc : CompareMainVC} {field : Field} {text : String} (hed : s.editor = some vc)
      (hf : vc.visible field) : Handled s (.edit field text) (s.showing (vc.edit field text))
  | addName {vc : CompareMainVC} {reads : Reads} (hed : s.editor = some vc)
      (hbtn : vc.addNewNameBtn = true) :
      Handled s (.addNewNameBtnDidTap reads)
        (s.showing ({ vc with colNum := vc.colNum + 1 }.tapped reads s.width s.db))
  | addItem {vc : CompareMainVC} {reads : Reads} (hed : s.editor = some vc)
      (hbtn : vc.addNewItemBtn = true) :
      Handled s (.addNewItemBtnDidTap reads)
        (s.showing ({ vc with rowNum := vc.rowNum + 1 }.tapped reads s.width s.db))
  | save {vc : CompareMainVC} {now : String} {writes : Writes} {reads : Reads}
      {outcome : Except Realm Realm} (hed : s.editor = some vc)
      (hsave : vc.saveData now writes s.db = some outcome) :
      Handled s (.saveBtnDidTap now writes reads)
        ({ s with db := Throwing.store outcome }.showing
          (vc.redisplayed reads s.width (Throwing.store outcome)))
  | back {opens : Bool} :
      Handled s (.backBtnDidTap opens)
        { s with editor := none, list := s.list.viewDidLoad opens s.db }
  | swipe : Handled s .swipeDown { s with editor := none }
  | layout {width : ℚ} : Handled s (.layoutSubviews width) { s with width := width }
  | launch {opens : Bool} :
      Handled s (.launch opens)
        { s with
          width := 0, editor := none, list := ViewController.viewDidLoad opens s.db ⟨[], []⟩ }

/-- **The step inversion.** -/
theorem Inv.handled (h : s.Inv) (he : app.enabled s e) (hs : app.step s e = some s') :
    s.Handled e s' := by
  cases e with
  | addNewHikakuBtnDidTap opens reads =>
    have hed : s.editor = none := Option.isNone_iff_eq_none.mp he
    rw [app_step, addNewHikakuBtnDidTap_eq h] at hs
    cases opens with
    | false =>
      obtain rfl : s = s' := Option.some_inj.mp hs
      exact .notPresented reads
    | true =>
      obtain ⟨max, hmax⟩ := CompareItemRealm.exists_getMaxGroupId s.db
      simp only [hmax] at hs
      split at hs
      case isTrue hreads =>
        obtain rfl := Option.some_inj.mp hs
        exact .addNew hed hmax hreads
      case isFalse => cases hs
  | didSelectRowAt row select reads =>
    have hed : s.editor = none := Option.isNone_iff_eq_none.mp he.1
    obtain ⟨g, hg⟩ := h.groupId_of_row he.2
    rw [app_step, didSelectRowAt_eq h hg] at hs
    split at hs
    case isTrue hreads =>
      obtain rfl := Option.some_inj.mp hs
      exact .select hed he.2 hg hreads
    case isFalse => cases hs
  | confirmDelete row delete =>
    have hed : s.editor = none := Option.isNone_iff_eq_none.mp he.1
    obtain ⟨g, hg⟩ := h.groupId_of_row he.2
    rw [app_step, confirmDelete_eq he.2 hg] at hs
    obtain rfl := Option.some_inj.mp hs
    exact .delete hed he.2 hg
  | edit field text =>
    obtain ⟨vc, hed, hf⟩ := he
    rw [app_step, edit_eq hed] at hs
    obtain rfl := Option.some_inj.mp hs
    exact .edit hed hf
  | addNewNameBtnDidTap reads =>
    obtain ⟨vc, hed, hbtn⟩ := he
    rw [app_step, addNewNameBtnDidTap_eq h hed hbtn] at hs
    obtain rfl := Option.some_inj.mp hs
    exact .addName hed hbtn
  | addNewItemBtnDidTap reads =>
    obtain ⟨vc, hed, hbtn⟩ := he
    rw [app_step, addNewItemBtnDidTap_eq h hed hbtn] at hs
    obtain rfl := Option.some_inj.mp hs
    exact .addItem hed hbtn
  | saveBtnDidTap now writes reads =>
    obtain ⟨vc, hed⟩ := Option.isSome_iff_exists.mp he
    rw [app_step, saveBtnDidTap_eq h hed, Option.map_eq_some_iff] at hs
    obtain ⟨outcome, hsave, rfl⟩ := hs
    exact .save hed hsave
  | backBtnDidTap opens =>
    obtain rfl := Option.some_inj.mp hs
    exact .back
  | swipeDown =>
    obtain rfl := Option.some_inj.mp hs
    exact .swipe
  | layoutSubviews width =>
    obtain rfl := Option.some_inj.mp hs
    exact .layout
  | launch opens =>
    obtain rfl := Option.some_inj.mp hs
    exact .launch

/-! ### The invariant along runs -/

theorem Inv.of_no_editor (hk : s'.db.Keys)
    (hrows : s'.list.displayList.length ≤ s'.list.groupIdList.length) (hed : s'.editor = none) :
    s'.Inv :=
  ⟨hk, hrows, fun vc hvc => by rw [hed] at hvc; cases hvc⟩

theorem deleted_keys {db : Realm} (hk : db.Keys) (delete : Delete) (g : ℤ) :
    (ViewController.deleted delete g db).Keys := by
  unfold ViewController.deleted
  split
  · exact hk.deleteGroup g
  · exact hk

/-- **Every step preserves the invariant.** -/
theorem Inv.step (h : s.Inv) (he : app.enabled s e) (hs : app.step s e = some s') : s'.Inv := by
  cases h.handled he hs with
  | notPresented reads => exact h
  | addNew hed hmax hreads =>
    exact h.showing (fresh_bounded h.keys _ (by omega) hreads s.width)
  | select hed hrow hg hreads =>
    exact h.showing (fresh_bounded h.keys _ selectedRowNum_mem hreads s.width)
  | delete hed hrow hg =>
    refine .of_no_editor (deleted_keys h.keys _ _) ?_ hed
    -- the row leaves the texts only
    have := h.rows
    show (s.list.displayList.eraseIdx _).length ≤ s.list.groupIdList.length
    rw [List.length_eraseIdx]
    split <;> omega
  | @edit vc field text hed hf =>
    have hvc := h.editor vc hed
    exact h.showing ⟨⟨hvc.loaded.items, hvc.loaded.contents⟩, hvc.two_le_colNum, hvc.colNum_le,
      hvc.one_le_rowNum, hvc.rowNum_le, hvc.stored_le, hvc.nameBtn, hvc.itemBtn⟩
  | addName hed hbtn =>
    exact h.showing ((h.editor _ hed).addNewNameBtnDidTap h.keys hbtn _ _).2
  | addItem hed hbtn =>
    exact h.showing ((h.editor _ hed).addNewItemBtnDidTap h.keys hbtn _ _).2
  | @save vc now writes reads outcome hed hsave =>
    obtain ⟨hk, hvc⟩ := (h.editor vc hed).saveData h.keys hsave
    refine ⟨hk, h.rows, ?_⟩
    intro vc' hvc'
    rw [← Option.some_inj.mp hvc']
    exact hvc.redisplayed hk reads s.width
  | back => exact .of_no_editor h.keys (ViewController.length_viewDidLoad _ _ _).le rfl
  | swipe => exact .of_no_editor h.keys h.rows rfl
  | layout => exact ⟨h.keys, h.rows, h.editor⟩
  | launch => exact .of_no_editor h.keys (ViewController.length_viewDidLoad _ _ _).le rfl

theorem Inv.of_run {es : List Event} (hinv : s.Inv) (h : app.Run s es s') : s'.Inv :=
  h.invariant (fun hi he hs => hi.step he hs) hinv

theorem inv_of_run {es : List Event} (h : app.Run init es s) : s.Inv :=
  h.invariant (fun hi he hs => hi.step he hs) inv_init

end App

theorem Reachable.inv {s : App} (h : Reachable s) : s.Inv := by
  obtain ⟨es, hrun⟩ := h
  exact App.inv_of_run hrun

end HikakuKun
