/-
What the records of the tables tell about the run.

* `stored_group_is_snapshot` — the records of a group are what one editor held
  at one save, the last that wrote them;
* `ids_in_order` — along runs that open stored groups only, the item table is in
  the order of the group ids, so the list shows the comparisons as they were
  created;
* `group_ids_in_range` — no group id exceeds the number of new comparisons.
-/
import HikakuKun.ListScreen
import HikakuKun.PartialForms

namespace HikakuKun

/-! ### Snapshots -/

/-- The event saves these records for group `g`: the title and the headings of
the editor in front and some of its first columns, all of them if the group was
stored. -/
def App.Snapshots (g : ℤ) (items : List CompareItemRealm) (contents : List CompareContentsRealm)
    (s : App) (e : Event) : Prop :=
  ∃ vc now writes reads j, s.editor = some vc ∧ vc.groupId = g ∧
    e = .saveBtnDidTap now writes reads ∧ items = [vc.colItem now] ∧
    contents = (List.range j).map (vc.colContents now) ∧ j ≤ vc.colNum ∧
    (s.db.itemsOf g ≠ [] → j = vc.colNum)

theorem App.Inv.snapshots_step {s s' : App} {e : Event} {g : ℤ} (hinv : s.Inv)
    (he : app.enabled s e) (hs : app.step s e = some s') (hg : s.writesGroup e = some g)
    (hitems : s'.db.itemsOf g ≠ []) :
    s.Snapshots g (s'.db.itemsOf g) (s'.db.contentsOf g) e := by
  cases hinv.wrote hg he hs with
  | delete hg' hcommit hdb =>
    rw [hdb] at hitems
    exact absurd Realm.itemsOf_deleteGroup hitems
  | @save vc now writes reads j hed hvg hcommit hj hlen hle hw =>
    subst hvg
    refine ⟨vc, now, writes, reads, j, hed, rfl, rfl, hw.items, hw.contents hlen, hle, ?_⟩
    intro hne
    rw [hj, if_neg hne]

/-- **Snapshots.**  Along every run, whatever fails, the records of a stored
group are what the editor of one save held, with its timestamp, and no event
since has committed a transaction on the group. -/
theorem stored_group_is_snapshot {es : List Event} {s : App} (hrun : app.Run App.init es s)
    {g : ℤ} (hg : s.db.itemsOf g ≠ []) :
    app.Since (App.Snapshots g (s.db.itemsOf g) (s.db.contentsOf g))
      (fun u e => u.writesGroup e ≠ some g) App.init es := by
  refine hrun.since (Q := fun u => u.db.itemsOf g = s.db.itemsOf g ∧
    u.db.contentsOf g = s.db.contentsOf g) ?_ ?_ ⟨rfl, rfl⟩
  · rintro ⟨hinit, -⟩
    exact hg hinit.symm
  · rintro fs u e u' hfs he hs ⟨hitems, hcontents⟩
    have hinv := App.inv_of_run hfs
    by_cases hwrites : u.writesGroup e = some g
    · left
      rw [← hitems] at hg
      rw [← hitems, ← hcontents]
      exact hinv.snapshots_step he hs hwrites hg
    · right
      obtain ⟨hsame, hsame'⟩ := hinv.unwritten_step hwrites he hs
      exact ⟨⟨hsame.symm.trans hitems, hsame'.symm.trans hcontents⟩, hwrites⟩

theorem stored_group_is_snapshot_partialSave : ∃ s, app.Run App.init partialSave s ∧
    app.Since (App.Snapshots 1 (s.db.itemsOf 1) (s.db.contentsOf 1))
      (fun u e => u.writesGroup e ≠ some 1) App.init partialSave := by
  have hrun := EventSystem.run_get_exec partialSave_isSome
  have hg : ((app.exec App.init partialSave).get partialSave_isSome).db.itemsOf 1 ≠ [] := by
    decide
  exact ⟨_, hrun, stored_group_is_snapshot hrun hg⟩

/-! ### The order of the group ids -/

namespace CompareMainVC

variable {vc : CompareMainVC} {now : String} {writes : Writes} {db db' : Realm}

theorem updateOrInsert_items (g : ℤ) (stored : List CompareContentsRealm) (c : Fin 5) :
    (vc.updateOrInsert now g stored c db).items = db.items := by
  unfold updateOrInsert
  split_ifs <;> rfl

/-- The update transaction keeps the group ids of the item table. -/
theorem map_groupId_updateBlock {items : Results CompareItemRealm}
    {contents : Results CompareContentsRealm} (h : vc.updateBlock now items contents db = some db') :
    db'.items.map CompareItemRealm.groupId = db.items.map CompareItemRealm.groupId := by
  rw [updateBlock] at h
  obtain ⟨db₁, h₁, h⟩ := Option.bind_eq_some_iff.mp h
  obtain ⟨db₂, h₂, h⟩ := Option.bind_eq_some_iff.mp h
  obtain ⟨-, -, rfl⟩ := Option.map_eq_some_iff.mp h₁
  obtain ⟨-, -, rfl⟩ := Option.map_eq_some_iff.mp h₂
  rw [← Option.some_inj.mp h, updateOrInsert_items, updateOrInsert_items, updateOrInsert_items]
  exact Table.map_modifyFirst fun _ => rfl

/-- A save keeps the group ids of the item table, or appends its own. -/
theorem map_groupId_saveData {outcome : Except Realm Realm} (hload : vc.Loaded)
    (h : vc.saveData now writes db = some outcome) :
    (Throwing.store outcome).items.map CompareItemRealm.groupId =
        db.items.map CompareItemRealm.groupId ∨
      (db.itemsOf vc.groupId = [] ∧ (Throwing.store outcome).items.map CompareItemRealm.groupId =
        db.items.map CompareItemRealm.groupId ++ [vc.groupId]) := by
  by_cases hitems : db.itemsOf vc.groupId = []
  · have hinserted : ∀ j, (vc.inserted now db j).items.map CompareItemRealm.groupId =
        db.items.map CompareItemRealm.groupId ++ [vc.groupId] := fun j => List.map_append
    rw [saveData_eq_insertData now writes hload hitems, Option.some_inj] at h
    subst h
    rcases insertData_cases vc now writes db with
      ⟨-, heq⟩ | ⟨-, -, -, heq⟩ | ⟨-, -, j, -, -, -, heq⟩
    · rw [heq]
      exact .inl rfl
    · rw [heq]
      exact .inr ⟨hitems, hinserted _⟩
    · rw [heq]
      exact .inr ⟨hitems, hinserted j⟩
  · rw [saveData_eq_write now writes hload hitems] at h
    split at h
    case isFalse =>
      cases h
      exact .inl rfl
    case isTrue =>
      obtain ⟨db', hblock, rfl⟩ := Option.map_eq_some_iff.mp h
      cases writes.write 0 with
      | false => exact .inl rfl
      | true => exact .inl (map_groupId_updateBlock hblock)

end CompareMainVC

theorem Realm.itemsOf_ne_nil_iff {db : Realm} {g : ℤ} :
    db.itemsOf g ≠ [] ↔ g ∈ db.items.map CompareItemRealm.groupId := by
  rw [Ne, Realm.itemsOf, Table.group_eq_nil_iff, List.mem_map]
  push Not
  exact Iff.rfl

/-- `0`, or the id of an item. -/
theorem CompareItemRealm.getMaxGroupId_mem {db : Realm} {opens : Bool} {max : ℤ}
    (h : getMaxGroupId opens db = .ok max) : max = 0 ∨ max ∈ db.items.map groupId := by
  unfold getMaxGroupId at h
  split at h
  case isFalse => cases h
  case isTrue =>
    split at h
    case h_1 =>
      cases h
      exact .inl rfl
    case h_2 first rest hcons =>
      cases h
      refine .inr ((List.mem_insertionSort (· ≥ ·)).mp ?_)
      rw [hcons]
      exact List.mem_cons_self

namespace App

/-- A row that is opened stands for a stored group. -/
def OpensStored (s : App) : Event → Prop
  | .didSelectRowAt row _ _ => ∀ g ∈ s.list.groupIdList[row]?, s.db.itemsOf g ≠ []
  | _ => True

instance (s : App) : (e : Event) → Decidable (s.OpensStored e)
  | .didSelectRowAt row _ _ =>
    inferInstanceAs (Decidable (∀ g ∈ s.list.groupIdList[row]?, s.db.itemsOf g ≠ []))
  | .addNewHikakuBtnDidTap _ _ | .confirmDelete _ _ | .edit _ _ | .addNewNameBtnDidTap _
  | .addNewItemBtnDidTap _ | .saveBtnDidTap _ _ _ | .backBtnDidTap _ | .swipeDown
  | .layoutSubviews _ | .launch _ => .isTrue trivial

/-- The group ids of a table increase from 1, and the group in front, if any, is
one of them or comes after them. -/
structure IdsInOrder (ids : List ℤ) (front : Option ℤ) : Prop where
  increasing : ids.Pairwise (· < ·)
  positive : ∀ g ∈ ids, 1 ≤ g
  current : ∀ g ∈ front, g ∈ ids ∨ (1 ≤ g ∧ ∀ g' ∈ ids, g' < g)

/-- The group in front is appended. -/
theorem IdsInOrder.append {ids : List ℤ} {g : ℤ} (h : IdsInOrder ids (some g)) (hg : g ∉ ids) :
    IdsInOrder (ids ++ [g]) (some g) := by
  obtain ⟨hpos, hlt⟩ := (h.current g rfl).resolve_left hg
  refine ⟨List.pairwise_append.mpr ⟨h.increasing, List.pairwise_singleton _ _, ?_⟩, ?_, ?_⟩
  · intro g' hg' g'' hg''
    rw [List.mem_singleton.mp hg'']
    exact hlt g' hg'
  · intro g' hg'
    rcases List.mem_append.mp hg' with hold | hnew
    · exact h.positive g' hold
    · rwa [List.mem_singleton.mp hnew]
  · intro g' hg'
    rw [← Option.some_inj.mp hg']
    exact .inl (List.mem_append_right _ (List.mem_singleton_self g))

theorem IdsInOrder.sublist {ids ids' : List ℤ} {front : Option ℤ} (h : IdsInOrder ids front)
    (hsub : ids'.Sublist ids) : IdsInOrder ids' none :=
  ⟨h.increasing.sublist hsub, fun g hg => h.positive g (hsub.subset hg), fun _ hg => by cases hg⟩

theorem IdsInOrder.closed {ids : List ℤ} {front : Option ℤ} (h : IdsInOrder ids front) :
    IdsInOrder ids none :=
  h.sublist (List.Sublist.refl ids)

variable {s s' : App} {e : Event}

/-- The group ids of the item table. -/
def ids (s : App) : List ℤ := s.db.items.map CompareItemRealm.groupId

/-- The group of the editor in front. -/
def front (s : App) : Option ℤ := s.editor.map (·.groupId)

theorem sublist_ids_deleted (delete : Delete) (g : ℤ) :
    ((ViewController.deleted delete g s.db).items.map CompareItemRealm.groupId).Sublist s.ids := by
  unfold ViewController.deleted
  split
  · exact (List.filter_sublist).map _
  · exact List.Sublist.refl _

theorem IdsInOrder.step (h : IdsInOrder s.ids s.front) (hinv : s.Inv) (hopens : s.OpensStored e)
    (he : app.enabled s e) (hs : app.step s e = some s') : IdsInOrder s'.ids s'.front := by
  have hfront : ∀ {vc : CompareMainVC}, s.editor = some vc → IdsInOrder s.ids (some vc.groupId) := by
    intro vc hed
    rwa [front, hed] at h
  have hkept : ∀ {vc vc' : CompareMainVC}, s.editor = some vc → vc'.groupId = vc.groupId →
      IdsInOrder (s.showing vc').ids (s.showing vc').front := by
    intro vc vc' hed hg
    show IdsInOrder s.ids (some vc'.groupId)
    rw [hg]
    exact hfront hed
  cases hinv.handled he hs with
  | notPresented reads => exact h
  | @addNew max reads hed hmax hreads =>
    show IdsInOrder s.ids (some (max + 1))
    refine ⟨h.increasing, h.positive, fun g hg => .inr ?_⟩
    rw [← Option.some_inj.mp hg]
    constructor
    · rcases CompareItemRealm.getMaxGroupId_mem hmax with rfl | hmem
      · exact le_rfl
      · have := h.positive max hmem
        omega
    · intro g' hg'
      obtain ⟨item, hitem, rfl⟩ := List.mem_map.mp hg'
      have := CompareItemRealm.le_getMaxGroupId hmax hitem
      omega
  | @select row g select reads hed hrow hg hreads =>
    show IdsInOrder s.ids (some g)
    refine ⟨h.increasing, h.positive, fun g' hg' => .inl ?_⟩
    rw [← Option.some_inj.mp hg']
    exact Realm.itemsOf_ne_nil_iff.mp (hopens g hg)
  | @delete row g delete hed hrow hg =>
    have hnone : s.front = none := by rw [front, hed, Option.map_none]
    show IdsInOrder ((ViewController.deleted delete g s.db).items.map _) s.front
    rw [hnone]
    exact h.sublist (sublist_ids_deleted delete g)
  | edit hed hf => exact hkept hed rfl
  | addName hed hbtn => exact hkept hed rfl
  | addItem hed hbtn => exact hkept hed rfl
  | @save vc now writes reads outcome hed hsave =>
    show IdsInOrder ((Throwing.store outcome).items.map CompareItemRealm.groupId) (some vc.groupId)
    rcases CompareMainVC.map_groupId_saveData (hinv.editor vc hed).loaded hsave with
      heq | ⟨hitems, heq⟩
    · rw [heq]
      exact hfront hed
    · rw [heq]
      refine (hfront hed).append fun hmem => ?_
      exact Realm.itemsOf_ne_nil_iff.mpr hmem hitems
  | back => exact h.closed
  | swipe => exact h.closed
  | layout => exact h
  | launch => exact h.closed

end App

/-- **The order of the comparisons.**  Along every run that opens stored groups
only, whatever fails, the rows of a rebuilt list are in increasing order of their
group ids, which start from 1. -/
theorem ids_in_order {es : List Event} {s : App} (hrun : app.Run App.init es s)
    (hopens : app.AlongRun App.OpensStored App.init es) :
    (s.list.viewDidLoad true s.db).groupIdList.Pairwise (· < ·) ∧
    ∀ g ∈ (s.list.viewDidLoad true s.db).groupIdList, 1 ≤ g := by
  have hinit : App.IdsInOrder App.init.ids App.init.front :=
    ⟨.nil, fun _ hg => absurd hg List.not_mem_nil, fun _ hg => by cases hg⟩
  have hboth : s.Inv ∧ App.IdsInOrder s.ids s.front :=
    hrun.invariant_along (I := fun s => s.Inv ∧ App.IdsInOrder s.ids s.front)
      (fun ⟨hinv, h⟩ hopens he hs => ⟨hinv.step he hs, h.step hinv hopens he hs⟩) hopens
      ⟨App.inv_init, hinit⟩
  rw [ViewController.viewDidLoad_true]
  exact ⟨hboth.2.increasing, hboth.2.positive⟩

/-- The first of two comparisons is opened again and saved. -/
def reopened : List Event :=
  twoGroups ++ [.didSelectRowAt 0 .ok .ok, .saveBtnDidTap "" .ok .ok]

theorem reopened_isSome : (app.exec App.init reopened).isSome = true := by decide +kernel

theorem ids_in_order_reopened : ∃ s, app.Run App.init reopened s ∧
    (s.list.viewDidLoad true s.db).groupIdList.Pairwise (· < ·) ∧
    ∀ g ∈ (s.list.viewDidLoad true s.db).groupIdList, 1 ≤ g := by
  have hopens : app.AlongRun App.OpensStored App.init reopened := by decide +kernel
  have hrun := EventSystem.run_get_exec reopened_isSome
  exact ⟨_, hrun, ids_in_order hrun hopens⟩

/-! ### The range of the group ids -/

def Event.isAddNewHikaku : Event → Bool
  | .addNewHikakuBtnDidTap _ _ => true
  | _ => false

/-- All the group ids that the app holds: in either table, behind a row, or in
front. -/
structure App.AllIds (P : ℤ → Prop) (s : App) : Prop where
  stored : ∀ g ∈ s.ids, P g
  columns : ∀ content ∈ s.db.contents, P content.groupId
  listed : ∀ g ∈ s.list.groupIdList, P g
  front : ∀ g ∈ s.front, P g

namespace App

variable {s s' : App} {e : Event} {P Q : ℤ → Prop}

theorem AllIds.imp (h : s.AllIds P) (hPQ : ∀ g, P g → Q g) : s.AllIds Q :=
  ⟨fun g hg => hPQ g (h.stored g hg), fun content hc => hPQ _ (h.columns content hc),
    fun g hg => hPQ g (h.listed g hg), fun g hg => hPQ g (h.front g hg)⟩

/-- The ids of the content table are among those of the item table. -/
theorem Inv.columns_of_stored (hinv : s.Inv) (h : ∀ g ∈ s.ids, P g) :
    ∀ content ∈ s.db.contents, P content.groupId := by
  intro content hc
  obtain ⟨item, hitem, hid⟩ := hinv.keys.exists_item hc
  exact h _ (List.mem_map.mpr ⟨item, hitem, hid⟩)

/-- A list built from the store holds ids of the store. -/
theorem AllIds.of_viewDidLoad (h : s.AllIds P) {width : ℚ} {opens : Bool}
    {list : ViewController} :
    (App.mk s.db width (list.viewDidLoad opens s.db) none).AllIds P := by
  refine ⟨h.stored, h.columns, fun g hg => ?_, fun g hg => by cases hg⟩
  cases opens with
  | false => exact absurd hg List.not_mem_nil
  | true =>
    rw [ViewController.viewDidLoad_true] at hg
    exact h.stored g hg

theorem AllIds.showing (h : s.AllIds P) {vc : CompareMainVC} (hvc : P vc.groupId) :
    (s.showing vc).AllIds P :=
  ⟨h.stored, h.columns, h.listed, fun g hg => by rwa [← Option.some_inj.mp hg]⟩

theorem AllIds.editor (h : s.AllIds P) {vc : CompareMainVC} (hed : s.editor = some vc) :
    P vc.groupId :=
  h.front vc.groupId (by rw [App.front, hed]; rfl)

/-- The only id that was not there before is that of a new comparison. -/
theorem Inv.allIds_step (hinv : s.Inv) (h : s.AllIds P)
    (hnew : e.isAddNewHikaku = true → ∀ max, CompareItemRealm.getMaxGroupId true s.db = .ok max →
      P (max + 1))
    (he : app.enabled s e) (hs : app.step s e = some s') : s'.AllIds P := by
  have hinv' := hinv.step he hs
  cases hinv.handled he hs with
  | notPresented reads => exact h
  | addNew hed hmax hreads => exact h.showing (hnew rfl _ hmax)
  | select hed hrow hg hreads => exact h.showing (h.listed _ (List.mem_of_getElem? hg))
  | @delete row g delete hed hrow hg =>
    have hstored : ∀ g' ∈ (ViewController.deleted delete g s.db).items.map (·.groupId), P g' :=
      fun g' hg' => h.stored g' ((sublist_ids_deleted delete g).subset hg')
    exact ⟨hstored, hinv'.columns_of_stored hstored, h.listed, h.front⟩
  | @edit vc field text hed hf =>
    have hvc : P vc.groupId := h.editor hed
    exact h.showing hvc
  | @addName vc reads hed hbtn =>
    have hvc : P vc.groupId := h.editor hed
    exact h.showing hvc
  | @addItem vc reads hed hbtn =>
    have hvc : P vc.groupId := h.editor hed
    exact h.showing hvc
  | @save vc now writes reads outcome hed hsave =>
    have hvc := h.editor hed
    have hstored : ∀ g ∈ (Throwing.store outcome).items.map CompareItemRealm.groupId, P g := by
      intro g hmem
      rcases CompareMainVC.map_groupId_saveData (hinv.editor vc hed).loaded hsave with
        heq | ⟨-, heq⟩
      · rw [heq] at hmem
        exact h.stored g hmem
      · rw [heq] at hmem
        rcases List.mem_append.mp hmem with hold | hfront
        · exact h.stored g hold
        · rwa [List.mem_singleton.mp hfront]
    exact ⟨hstored, hinv'.columns_of_stored hstored, h.listed,
      fun g hg => by rwa [← Option.some_inj.mp hg]⟩
  | back => exact h.of_viewDidLoad
  | swipe => exact ⟨h.stored, h.columns, h.listed, fun g hg => by cases hg⟩
  | layout => exact ⟨h.stored, h.columns, h.listed, h.front⟩
  | launch => exact h.of_viewDidLoad

end App

/-- **The range of the group ids.**  Along every run, whatever fails, each group id
in the store, behind a row or in front is at least 1 and at most the number of
new comparisons asked for so far.  Before 2 ^ 63 - 1 of these, neither it nor the
next id overflows `Int`. -/
theorem group_ids_in_range {es : List Event} {s : App} (hrun : app.Run App.init es s) :
    (s.AllIds fun g => 1 ≤ g ∧ g ≤ es.countP Event.isAddNewHikaku) ∧
    (es.countP Event.isAddNewHikaku < 2 ^ 63 - 1 → s.AllIds fun g => g + 1 < 2 ^ 63) := by
  have hboth : s.Inv ∧ s.AllIds fun g => 1 ≤ g ∧ g ≤ es.countP Event.isAddNewHikaku := by
    refine hrun.snoc_induction (P := fun es s => s.Inv ∧ s.AllIds fun g =>
      1 ≤ g ∧ g ≤ es.countP Event.isAddNewHikaku) ⟨App.inv_init, ?_⟩ ?_
    · exact ⟨fun g hg => absurd hg List.not_mem_nil, fun g hg => absurd hg List.not_mem_nil,
        fun g hg => absurd hg List.not_mem_nil, fun g hg => by cases hg⟩
    · rintro fs u e u' - ⟨hinv, h⟩ he hs
      refine ⟨hinv.step he hs, hinv.allIds_step (h.imp fun g hg => ?_) (fun hnew max hmax => ?_)
        he hs⟩
      · rw [List.countP_append]
        have := hg.2
        omega
      · rw [List.countP_append, List.countP_singleton, if_pos hnew]
        rcases CompareItemRealm.getMaxGroupId_mem hmax with rfl | hmem
        · omega
        · have := h.stored max hmem
          omega
  refine ⟨hboth.2, fun hcount => hboth.2.imp fun g hg => ?_⟩
  have := hg.2
  omega

theorem group_ids_in_range_reopened : ∃ s, app.Run App.init reopened s ∧ s.ids = [1, 2] ∧
    (s.AllIds fun g => 1 ≤ g ∧ g ≤ 2) ∧ s.AllIds fun g => g + 1 < 2 ^ 63 := by
  have hrun := EventSystem.run_get_exec reopened_isSome
  have hcount : reopened.countP Event.isAddNewHikaku = 2 := by decide
  obtain ⟨hrange, hint⟩ := group_ids_in_range hrun
  rw [hcount] at hrange hint
  exact ⟨_, hrun, by decide +kernel, hrange, hint (by decide)⟩

end HikakuKun
