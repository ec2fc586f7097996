/-
What time it is.

A save stamps the records it writes, and nothing reads the stamps.  So the app
does the same whatever the clock says.

* `Realm.untimed` — the tables without their timestamps; what the handlers read
  of the tables, and what they write into them, goes through it;
* `untimed_hom` — so do the handlers;
* `times_unobservable` — two runs that differ in the times of their saves differ
  in timestamps only;
* `saved_again` — after a save that succeeds, more saves change timestamps only.
-/
import HikakuKun.Screen

namespace HikakuKun

open CompareContentsRealm (firstWithId)

def CompareItemRealm.untimed (item : CompareItemRealm) : CompareItemRealm :=
  { item with timestamp := "" }

def CompareContentsRealm.untimed (content : CompareContentsRealm) : CompareContentsRealm :=
  { content with timestamp := "" }

namespace Realm

/-- The tables without their timestamps. -/
def untimed (db : Realm) : Realm where
  items := db.items.map (·.untimed)
  contents := db.contents.map (·.untimed)

variable {db : Realm} {g : ℤ}

/-! ### Reading -/

@[simp] theorem itemsOf_untimed : db.untimed.itemsOf g = (db.itemsOf g).map (·.untimed) :=
  Table.group_map (fun _ => rfl) g db.items

@[simp] theorem contentsOf_untimed :
    db.untimed.contentsOf g = (db.contentsOf g).map (·.untimed) :=
  Table.group_map (fun _ => rfl) g db.contents

theorem firstWithId_untimed (contents : List CompareContentsRealm) (c : ℕ) :
    firstWithId (contents.map (·.untimed)) c = (firstWithId contents c).map (·.untimed) := by
  have hgroup : Table.group CompareContentsRealm.id c (contents.map (·.untimed)) =
      (Table.group CompareContentsRealm.id c contents).map (·.untimed) :=
    Table.group_map (fun _ => rfl) c contents
  rw [firstWithId, firstWithId, hgroup, List.head?_map]

@[simp] theorem stored_untimed (f : Field) : db.untimed.stored g f = db.stored g f := by
  cases f with
  | groupNameTF => rw [stored, stored, itemsOf_untimed, List.head?_map, Option.map_map]; rfl
  | itemTF k => rw [stored, stored, itemsOf_untimed, List.head?_map, Option.map_map]; rfl
  | nameTF c =>
    rw [stored, stored, contentsOf_untimed, firstWithId_untimed, Option.map_map]; rfl
  | contentTF c k =>
    rw [stored, stored, contentsOf_untimed, firstWithId_untimed, Option.map_map]; rfl
  | memoTV c =>
    rw [stored, stored, contentsOf_untimed, firstWithId_untimed, Option.map_map]; rfl

theorem length_contentsOf_untimed :
    (db.untimed.contentsOf g).length = (db.contentsOf g).length := by
  rw [contentsOf_untimed, List.length_map]

theorem Keys.untimed (hk : db.Keys) : db.untimed.Keys := by
  intro g
  obtain ⟨hitem, horphan, hnumbered, hfive⟩ := hk g
  refine ⟨?_, ?_, ?_, ?_⟩
  · rwa [itemsOf_untimed, List.length_map]
  · rwa [itemsOf_untimed, contentsOf_untimed, Ne, List.map_eq_nil_iff, Ne, List.map_eq_nil_iff]
  · rw [ColumnsNumbered, contentsOf_untimed, Table.Numbered, List.map_map, List.length_map]
    exact hnumbered
  · rwa [length_contentsOf_untimed]

theorem getMaxGroupId_untimed (opens : Bool) :
    CompareItemRealm.getMaxGroupId opens db.untimed = CompareItemRealm.getMaxGroupId opens db := by
  have hids : db.untimed.items.map (·.groupId) = db.items.map (·.groupId) :=
    List.map_map
  rw [CompareItemRealm.getMaxGroupId, CompareItemRealm.getMaxGroupId, hids]

/-! ### Writing -/

theorem addItem_untimed (item : CompareItemRealm) :
    db.untimed.addItem item.untimed = (db.addItem item).untimed :=
  congrArg (Realm.mk · _) (@List.map_append _ _ CompareItemRealm.untimed db.items [item]).symm

theorem addContents_untimed (content : CompareContentsRealm) :
    db.untimed.addContents content.untimed = (db.addContents content).untimed :=
  congrArg (Realm.mk _)
    (@List.map_append _ _ CompareContentsRealm.untimed db.contents [content]).symm

theorem modifyItem_untimed {f f' : CompareItemRealm → CompareItemRealm}
    (hf : ∀ item, f' item.untimed = (f item).untimed) :
    db.untimed.modifyItem g f' = (db.modifyItem g f).untimed :=
  congrArg (Realm.mk · _) (Table.modifyFirst_map (fun _ => rfl) hf db.items)

theorem modifyContents_untimed {c : ℕ} {f f' : CompareContentsRealm → CompareContentsRealm}
    (hf : ∀ content, f' content.untimed = (f content).untimed) :
    db.untimed.modifyContents g c f' = (db.modifyContents g c f).untimed :=
  congrArg (Realm.mk _) (Table.modifyFirst_map (fun _ => rfl) hf db.contents)

theorem deleteGroup_untimed :
    ViewController.deleteGroup g db.untimed = (ViewController.deleteGroup g db).untimed :=
  congrArg₂ Realm.mk (Table.erase_map (fun _ => rfl) g db.items)
    (Table.erase_map (fun _ => rfl) g db.contents)

theorem write_untimed {succeeds : Bool} {block block' : Realm → Option Realm}
    (h : block' db.untimed = (block db).map untimed) :
    db.untimed.write succeeds block' = (db.write succeeds block).map (Throwing.map untimed) := by
  rw [write, write, h, Option.map_map, Option.map_map]
  refine congrFun (congrArg Option.map (funext fun db' => ?_)) _
  exact @Throwing.attempt_map _ db _ untimed succeeds (fun _ => db') (fun _ => db'.untimed) rfl

end Realm

/-! ### Saving -/

namespace CompareMainVC

open Realm

variable {vc : CompareMainVC} {db : Realm} {g : ℤ}

theorem colContents_untimed (now : String) (col : ℕ) :
    vc.colContents "" col = (vc.colContents now col).untimed := by
  rw [colContents, colContents]
  split <;> rfl

theorem insertData_untimed (now : String) (writes : Writes) :
    vc.insertData "" writes db.untimed = Throwing.map untimed (vc.insertData now writes db) := by
  have hopen : Throwing.attempt writes.opens id db.untimed =
      Throwing.map untimed (Throwing.attempt writes.opens id db) := Throwing.attempt_map rfl
  rw [insertData, insertData, hopen]
  refine Throwing.bind_map fun db => ?_
  have hitem : Throwing.attempt (writes.write 0) (addItem (vc.colItem "")) db.untimed =
      Throwing.map untimed (Throwing.attempt (writes.write 0) (addItem (vc.colItem now)) db) :=
    Throwing.attempt_map (addItem_untimed (vc.colItem now))
  rw [hitem]
  refine Throwing.bind_map fun db => Throwing.foldlM_map (fun db col => ?_) _ db
  rw [colContents_untimed now]
  exact Throwing.attempt_map (addContents_untimed _)

theorem updateFirst_untimed (now : String) (stored : List CompareContentsRealm) (c : Fin 5) :
    vc.updateFirst "" g (stored.map (·.untimed)) c db.untimed =
      (vc.updateFirst now g stored c db).map untimed := by
  rw [updateFirst, updateFirst, firstWithId_untimed, Option.map_map, Option.map_map]
  refine congrFun (congrArg Option.map (funext fun _ => ?_)) _
  exact modifyContents_untimed fun _ => rfl

theorem updateOrInsert_untimed (now : String) (stored : List CompareContentsRealm) (c : Fin 5) :
    vc.updateOrInsert "" g (stored.map (·.untimed)) c db.untimed =
      (vc.updateOrInsert now g stored c db).untimed := by
  rw [updateOrInsert, updateOrInsert, firstWithId_untimed, Option.isSome_map]
  split_ifs
  · exact modifyContents_untimed fun _ => rfl
  · rw [colContents_untimed now]
    exact addContents_untimed _
  · rfl

theorem updateBlock_untimed (now : String) (items : Results CompareItemRealm)
    (contents : Results CompareContentsRealm) :
    vc.updateBlock "" items contents db.untimed =
      (vc.updateBlock now items contents db).map untimed := by
  have hitem : db.untimed.modifyItem items.groupId (vc.updateItems "") =
      (db.modifyItem items.groupId (vc.updateItems now)).untimed :=
    modifyItem_untimed fun _ => rfl
  rw [updateBlock, updateBlock, contentsOf_untimed, hitem, updateFirst_untimed now]
  -- the first two columns may trap
  cases vc.updateFirst now contents.groupId (db.contentsOf contents.groupId) 0
    (db.modifyItem items.groupId (vc.updateItems now)) with
  | none => rfl
  | some db₁ =>
    simp only [Option.bind_eq_bind, Option.map_some, Option.bind_some]
    rw [updateFirst_untimed now]
    cases vc.updateFirst now contents.groupId (db.contentsOf contents.groupId) 1 db₁ with
    | none => rfl
    | some db₂ =>
      simp only [Option.map_some, Option.bind_some, updateOrInsert_untimed now]
      rfl

theorem groupIdInUse_untimed (items : Results CompareItemRealm) :
    vc.groupIdInUse items db.untimed = vc.groupIdInUse items db := by
  rw [groupIdInUse, groupIdInUse, itemsOf_untimed, List.filter_map, List.head?_map,
    Option.isSome_map]
  rfl

/-- A save, seen without times. -/
theorem saveData_untimed (now : String) (writes : Writes) :
    vc.saveData "" writes db.untimed =
      (vc.saveData now writes db).map (Throwing.map untimed) := by
  rw [saveData, saveData]
  cases vc.items with
  | none => rfl
  | some items =>
    simp only [Option.bind_eq_bind, Option.bind_some]
    rw [groupIdInUse_untimed]
    split
    · cases vc.contents with
      | none => rfl
      | some contents =>
        simp only [Option.bind_some]
        split
        · exact write_untimed (updateBlock_untimed now items contents)
        · rfl
    · exact congrArg some (insertData_untimed now writes)

/-! ### What an editor reads -/

theorem loadedColNum_untimed (reads : Reads) :
    vc.loadedColNum reads db.untimed = vc.loadedColNum reads db := by
  rw [loadedColNum, loadedColNum, length_contentsOf_untimed]

theorem reloaded_untimed (g : ℤ) (colNum rowNum : ℕ) (t : Texts) :
    reloaded db.untimed g colNum rowNum t = reloaded db g colNum rowNum t := by
  funext f
  cases f with
  | groupNameTF => rw [reloaded, reloaded, stored_untimed]
  | nameTF c => rw [reloaded, reloaded, stored_untimed]
  | memoTV c => rw [reloaded, reloaded, stored_untimed]
  | itemTF k => rw [reloaded, reloaded, stored_untimed]
  | contentTF c k => rw [reloaded, reloaded, stored_untimed, stored_untimed]

theorem redisplayed_untimed (reads : Reads) (width : ℚ) :
    vc.redisplayed reads width db.untimed = vc.redisplayed reads width db := by
  rw [redisplayed, redisplayed, loadedColNum_untimed, reloaded_untimed]

theorem tapped_untimed (reads : Reads) (width : ℚ) :
    vc.tapped reads width db.untimed = vc.tapped reads width db := by
  rw [tapped, tapped, redisplayed_untimed, loadedColNum_untimed, reloaded_untimed]

theorem Bounded.untimed (h : vc.Bounded db) : vc.Bounded db.untimed := by
  refine ⟨h.loaded, h.two_le_colNum, h.colNum_le, h.one_le_rowNum, h.rowNum_le, ?_, h.nameBtn,
    h.itemBtn⟩
  rw [length_contentsOf_untimed]
  exact h.stored_le

end CompareMainVC

/-! ### What the list screen reads -/

namespace ViewController

open Realm

variable {db : Realm}

theorem displayText_untimed (item : CompareItemRealm) :
    displayText db.untimed item.untimed = displayText db item := by
  rw [displayText, displayText]
  show (((db.untimed.contentsOf item.groupId).foldl appendName (item.groupName, 0)).1) = _
  rw [contentsOf_untimed, List.foldl_map]
  rfl

theorem viewDidLoad_untimed (opens : Bool) (list : ViewController) :
    list.viewDidLoad opens db.untimed = list.viewDidLoad opens db := by
  cases opens with
  | false => rfl
  | true =>
    have htexts : db.untimed.items.map (displayText db.untimed) =
        db.items.map (displayText db) := by
      rw [untimed, List.map_map]
      exact List.map_congr_left fun item _ => displayText_untimed item
    have hids : db.untimed.items.map (·.groupId) = db.items.map (·.groupId) := List.map_map
    rw [viewDidLoad_true, viewDidLoad_true, htexts, hids]

theorem idNum_untimed (items : List CompareItemRealm) (contents : List CompareContentsRealm) :
    idNum (items.map (·.untimed)) (contents.map (·.untimed)) = idNum items contents := by
  have hitem : ∀ k : Fin 7, (items.map (·.untimed)).head?.map (·.item k) =
      items.head?.map (·.item k) := by
    intro k
    rw [List.head?_map, Option.map_map]
    rfl
  have hcell : ∀ k id,
      cellShowsRow (contents.map (·.untimed)) k id = cellShowsRow contents k id := by
    intro k id
    rw [cellShowsRow, cellShowsRow, firstWithId_untimed, Option.any_map]
    rfl
  have hblock : rowNumBlock (items.map (·.untimed)) (contents.map (·.untimed)) =
      rowNumBlock items contents := by
    funext n k
    simp only [rowNumBlock, hitem, hcell]
  rw [idNum, idNum, hblock]

theorem deleted_untimed (delete : Delete) (g : ℤ) :
    deleted delete g db.untimed = (deleted delete g db).untimed := by
  rw [deleted, deleted]
  split
  · exact deleteGroup_untimed
  · rfl

end ViewController

/-! ### Events -/

/-- The event without its time. -/
def Event.untimed : Event → Event
  | .saveBtnDidTap _ writes reads => .saveBtnDidTap "" writes reads
  | e => e

namespace App

/-- The state without its times. -/
def untimed (s : App) : App := { s with db := s.db.untimed }

variable {s : App} {e : Event}

theorem Inv.untimed (h : s.Inv) : s.untimed.Inv :=
  ⟨h.keys.untimed, h.rows, fun vc hvc => (h.editor vc hvc).untimed⟩

theorem selectedRowNum_untimed (g : ℤ) (select : Reads) :
    selectedRowNum s.db.untimed g select = selectedRowNum s.db g select := by
  rw [selectedRowNum, selectedRowNum, Realm.itemsOf_untimed, Realm.contentsOf_untimed,
    ViewController.idNum_untimed]

theorem enabled_untimed : app.enabled s.untimed e.untimed ↔ app.enabled s e := by
  cases e with
  | _ => exact Iff.rfl

/-- A handler does the same without times. -/
theorem Inv.step_untimed (h : s.Inv) (he : app.enabled s e) :
    s.untimed.step e.untimed = (s.step e).map App.untimed := by
  have h' := h.untimed
  cases e with
  | addNewHikakuBtnDidTap opens reads =>
    show s.untimed.step (.addNewHikakuBtnDidTap opens reads) =
      (s.step (.addNewHikakuBtnDidTap opens reads)).map App.untimed
    have hmax : CompareItemRealm.getMaxGroupId opens s.untimed.db =
        CompareItemRealm.getMaxGroupId opens s.db := Realm.getMaxGroupId_untimed opens
    rw [addNewHikakuBtnDidTap_eq h, addNewHikakuBtnDidTap_eq h', hmax]
    cases CompareItemRealm.getMaxGroupId opens s.db with
    | error _ => rfl
    | ok max =>
      simp only
      split
      · exact congrArg (fun vc => some (s.untimed.showing vc))
          (CompareMainVC.redisplayed_untimed reads s.width)
      · rfl
  | didSelectRowAt row select reads =>
    obtain ⟨g, hg⟩ := h.groupId_of_row he.2
    show s.untimed.step (.didSelectRowAt row select reads) =
      (s.step (.didSelectRowAt row select reads)).map App.untimed
    rw [didSelectRowAt_eq h hg, @didSelectRowAt_eq s.untimed h' row g hg]
    split
    · show some (s.untimed.showing ((CompareMainVC.fresh g
        (selectedRowNum s.db.untimed g select)).redisplayed reads s.width s.db.untimed)) = _
      rw [selectedRowNum_untimed, CompareMainVC.redisplayed_untimed]
      rfl
    · rfl
  | confirmDelete row delete =>
    obtain ⟨g, hg⟩ := h.groupId_of_row he.2
    show s.untimed.step (.confirmDelete row delete) =
      (s.step (.confirmDelete row delete)).map App.untimed
    rw [confirmDelete_eq he.2 hg, @confirmDelete_eq s.untimed row g he.2 hg]
    exact congrArg (fun db => some (App.mk db _ _ _)) (ViewController.deleted_untimed delete g)
  | edit field text =>
    obtain ⟨vc, hed, -⟩ := he
    show s.untimed.step (.edit field text) = (s.step (.edit field text)).map App.untimed
    rw [edit_eq hed, @edit_eq s.untimed vc hed]
    rfl
  | addNewNameBtnDidTap reads =>
    obtain ⟨vc, hed, hbtn⟩ := he
    show s.untimed.step (.addNewNameBtnDidTap reads) =
      (s.step (.addNewNameBtnDidTap reads)).map App.untimed
    rw [addNewNameBtnDidTap_eq h hed hbtn, @addNewNameBtnDidTap_eq s.untimed h' vc hed hbtn]
    exact congrArg (fun vc => some (s.untimed.showing vc)) (CompareMainVC.tapped_untimed reads _)
  | addNewItemBtnDidTap reads =>
    obtain ⟨vc, hed, hbtn⟩ := he
    show s.untimed.step (.addNewItemBtnDidTap reads) =
      (s.step (.addNewItemBtnDidTap reads)).map App.untimed
    rw [addNewItemBtnDidTap_eq h hed hbtn, @addNewItemBtnDidTap_eq s.untimed h' vc hed hbtn]
    exact congrArg (fun vc => some (s.untimed.showing vc)) (CompareMainVC.tapped_untimed reads _)
  | saveBtnDidTap now writes reads =>
    obtain ⟨vc, hed⟩ := Option.isSome_iff_exists.mp he
    show s.untimed.step (.saveBtnDidTap "" writes reads) =
      (s.step (.saveBtnDidTap now writes reads)).map App.untimed
    rw [saveBtnDidTap_eq h hed, @saveBtnDidTap_eq s.untimed h' vc hed]
    show (vc.saveData "" writes s.db.untimed).map _ = _
    rw [CompareMainVC.saveData_untimed now, Option.map_map, Option.map_map]
    refine congrFun (congrArg Option.map (funext fun outcome => ?_)) _
    show App.showing { s.untimed with db := Throwing.store (Throwing.map Realm.untimed outcome) }
      (vc.redisplayed reads s.width (Throwing.store (Throwing.map Realm.untimed outcome))) = _
    rw [Throwing.store_map, CompareMainVC.redisplayed_untimed]
    rfl
  | backBtnDidTap opens =>
    exact congrArg (fun list => some (App.mk _ _ list _))
      (ViewController.viewDidLoad_untimed opens _)
  | swipeDown => rfl
  | layoutSubviews width => rfl
  | launch opens =>
    exact congrArg (fun list => some (App.mk _ _ list _))
      (ViewController.viewDidLoad_untimed opens _)

end App

/-- Leaving out the times is a homomorphism. -/
theorem untimed_hom : app.Hom app App.Inv App.untimed Event.untimed where
  invariant h he hs := h.step he hs
  enabled _ := App.enabled_untimed
  step h he := h.step_untimed he

/-- **The clock.**  From two states the app reaches that differ in timestamps
only, events that differ in the times of the saves only lead to states that
again differ in timestamps only: what is on screen, what is stored besides, and
whether a handler traps never depend on a time. -/
theorem times_unobservable {s s' t : App} {es es' : List Event} (hs : Reachable s)
    (hs' : Reachable s') (hsame : s.untimed = s'.untimed)
    (hes : es.map Event.untimed = es'.map Event.untimed) (hrun : app.Run s es t) :
    ∃ t', app.Run s' es' t' ∧ t.untimed = t'.untimed :=
  untimed_hom.exists_run hs.inv hs'.inv hsame hes hrun

/-- A new comparison with a title. -/
def titled : List Event := [.addNewHikakuBtnDidTap true .ok, .edit .groupNameTF "a"]

/-- It is saved. -/
def savedAt (now : String) : List Event := titled ++ [.saveBtnDidTap now .ok .ok]

theorem savedAt_isSome : (app.exec App.init (savedAt "2018/12/01")).isSome = true := by decide

theorem times_unobservable_savedAt : ∃ t t', app.Run App.init (savedAt "2018/12/01") t ∧
    app.Run App.init (savedAt "2019/01/01") t' ∧ t.untimed = t'.untimed := by
  have hrun := EventSystem.run_get_exec savedAt_isSome
  have hinit : Reachable App.init := ⟨[], .nil _⟩
  obtain ⟨t', ht', hsame⟩ :=
    @times_unobservable _ _ _ (savedAt "2018/12/01") (savedAt "2019/01/01") hinit hinit rfl rfl hrun
  exact ⟨_, t', hrun, ht', hsame⟩

/-! ### Saving again -/

/-- The save button. -/
def Event.isSave : Event → Prop
  | .saveBtnDidTap _ _ _ => True
  | _ => False

namespace CompareMainVC

open Realm

/-- The store holds what the editor would save, and a load changes nothing. -/
structure Saved (db : Realm) (width : ℚ) (vc : CompareMainVC) : Prop where
  items : db.untimed.itemsOf vc.groupId = [vc.colItem ""]
  contents : db.untimed.contentsOf vc.groupId =
    (List.range vc.colNum).map (vc.colContents "")
  redisplayed : ∀ reads, vc.redisplayed reads width db = vc

variable {vc : CompareMainVC} {db db' : Realm} {now : String} {writes : Writes} {width : ℚ}
  {outcome : Except Realm Realm}

theorem Saved.congr (h : vc.Saved db width) (hsame : db'.untimed = db.untimed) :
    vc.Saved db' width := by
  refine ⟨hsame ▸ h.items, hsame ▸ h.contents, fun reads => ?_⟩
  rw [← redisplayed_untimed, hsame, redisplayed_untimed]
  exact h.redisplayed reads

/-- An update by what is stored changes nothing. -/
theorem updateBlock_eq_self (hitems : db.itemsOf vc.groupId = [vc.colItem now])
    (hcontents : db.contentsOf vc.groupId = (List.range vc.colNum).map (vc.colContents now))
    (htwo : 2 ≤ vc.colNum) :
    vc.updateBlock now ⟨vc.groupId⟩ ⟨vc.groupId⟩ db = some db := by
  have hitem : db.modifyItem vc.groupId (vc.updateItems now) = db := by
    refine congrArg (Realm.mk · _) (Table.modifyFirst_eq_self fun item hmem hg => ?_)
    have hg : item.groupId = vc.groupId := of_decide_eq_true hg
    have hown : item ∈ db.itemsOf vc.groupId := mem_itemsOf.mpr ⟨hmem, hg⟩
    rw [hitems, List.mem_singleton] at hown
    rw [updateItems_eq hg, hown]
  have hcontent : ∀ c : Fin 5,
      db.modifyContents vc.groupId c (vc.updateContent now c) = db := by
    intro c
    refine congrArg (Realm.mk _) (Table.modifyFirst_eq_self fun content hmem hg => ?_)
    obtain ⟨hg, hc⟩ := of_decide_eq_true hg
    have hown : content ∈ db.contentsOf vc.groupId := mem_contentsOf.mpr ⟨hmem, hg⟩
    rw [hcontents] at hown
    obtain ⟨col, -, rfl⟩ := List.mem_map.mp hown
    rw [colContents_id] at hc
    rw [updateContent_eq hg ((colContents_id col).trans hc), hc]
  have hnum : db.ColumnsNumbered vc.groupId := by
    rw [ColumnsNumbered, hcontents]
    exact Table.numbered_map_range (fun col => colContents_id col) vc.colNum
  have hlen : (db.contentsOf vc.groupId).length = vc.colNum := by
    rw [hcontents, List.length_map, List.length_range]
  -- every column the editor shows is there, so none is inserted
  have hshown : ∀ c : Fin 5, vc.updateOrInsert now vc.groupId (db.contentsOf vc.groupId) c db =
      db := by
    intro c
    rw [updateOrInsert]
    split
    case isTrue hc =>
      have hfirst : (firstWithId (db.contentsOf vc.groupId) c).isSome = true := by
        rw [hnum.firstWithId, List.getElem?_eq_getElem (by omega)]
        rfl
      rw [if_pos hfirst, hcontent]
    case isFalse => rfl
  have hfirst : ∀ c : Fin 5, c.val < vc.colNum →
      vc.updateFirst now vc.groupId (db.contentsOf vc.groupId) c db = some db := by
    intro c hc
    rw [updateFirst_eq hnum hc, if_pos (hlen ▸ hc), hshown]
  have h0 : (0 : Fin 5).val < vc.colNum := by
    show 0 < vc.colNum
    omega
  have h1 : (1 : Fin 5).val < vc.colNum := by
    show 1 < vc.colNum
    omega
  rw [updateBlock]
  simp only [hitem, hfirst 0 h0, hfirst 1 h1, Option.bind_eq_bind, Option.bind_some, hshown]
  rfl

/-- A save of what is stored changes timestamps at most. -/
theorem Saved.saveData (h : vc.Saved db width) (hb : vc.Bounded db)
    (hsave : vc.saveData now writes db = some outcome) :
    (Throwing.store outcome).untimed = db.untimed := by
  have hitems : db.untimed.itemsOf vc.groupId ≠ [] := by
    rw [h.items]
    exact List.cons_ne_nil _ _
  have huntimed : vc.saveData "" writes db.untimed = some (Throwing.map untimed outcome) := by
    rw [saveData_untimed now, hsave, Option.map_some]
  rw [saveData_eq_write "" writes hb.loaded hitems, Realm.write,
    updateBlock_eq_self h.items h.contents hb.two_le_colNum] at huntimed
  have hstore := Throwing.store_map untimed outcome
  rw [← hstore]
  -- the transaction commits, or not, or the store does not open
  split at huntimed
  · rw [← Option.some_inj.mp huntimed]
    cases writes.write 0 with
    | false => rfl
    | true => rfl
  · rw [← Option.some_inj.mp huntimed]
    rfl

/-- A redisplay that finds the texts it shows, and the buttons attached. -/
theorem redisplayed_eq_self {reads : Reads} (hload : vc.Loaded)
    (hcol : vc.loadedColNum reads db = vc.colNum)
    (htexts : reloaded db vc.groupId vc.colNum vc.rowNum vc.texts = vc.texts)
    (hitem : vc.addNewItemBtn = decide (vc.rowNum ≤ 6))
    (hname : addsNewNameBtn width vc.colNum = true → vc.addNewNameBtn = true) :
    vc.redisplayed reads width db = vc := by
  have hbtn : (vc.addNewNameBtn || addsNewNameBtn width vc.colNum) = vc.addNewNameBtn := by
    cases hadd : addsNewNameBtn width vc.colNum with
    | false => exact Bool.or_false _
    | true => exact (Bool.or_true _).trans (hname hadd).symm
  rw [CompareMainVC.redisplayed, hcol, htexts, hbtn, ← hload.items, ← hload.contents, ← hitem]

/-- After a save whose writes succeed. -/
theorem Bounded.saved (hb : vc.Bounded db) (hk : db.Keys) (hopens : writes.opens = true)
    (hwrites : ∀ i, writes.write i = true) (hsave : vc.saveData now writes db = some outcome)
    (reads : Reads) (width : ℚ) :
    (vc.redisplayed reads width (Throwing.store outcome)).Saved (Throwing.store outcome) width := by
  have hw := saveData_written hk hb.loaded hb.two_le_colNum hb.colNum_le hopens hwrites hsave
  obtain ⟨hk', hb'⟩ := hb.saveData hk hsave
  have hcol : ∀ reads, vc.loadedColNum reads (Throwing.store outcome) = vc.colNum :=
    fun _ => loadedColNum_eq hb'.stored_le
  -- what is in view was stored, and what is not is not loaded
  have hload : reloaded (Throwing.store outcome) vc.groupId vc.colNum vc.rowNum vc.texts =
      vc.texts := by
    funext f
    by_cases hf : vc.visible f
    · exact reloaded_eq_self (hw.stored (within_of_visible hf))
    · exact reloaded_of_hidden hk' hb.two_le_colNum hb.one_le_rowNum hb'.stored_le hf
  have hcolNum : (vc.redisplayed reads width (Throwing.store outcome)).colNum = vc.colNum :=
    hcol reads
  have htexts : (vc.redisplayed reads width (Throwing.store outcome)).texts = vc.texts := by
    show reloaded _ _ (vc.loadedColNum reads (Throwing.store outcome)) _ _ = _
    rw [hcol, hload]
  refine ⟨?_, ?_, fun reads' => redisplayed_eq_self ⟨rfl, rfl⟩ ?_ ?_ rfl ?_⟩
  · show (Throwing.store outcome).untimed.itemsOf vc.groupId = _
    have hitem : (vc.redisplayed reads width (Throwing.store outcome)).colItem "" =
        vc.colItem "" := by
      rw [colItem, colItem, htexts]
      rfl
    rw [itemsOf_untimed, hw.items, hitem]
    rfl
  · show (Throwing.store outcome).untimed.contentsOf vc.groupId = _
    rw [contentsOf_untimed, hw.contents hb.stored_le, List.map_map, hcolNum]
    refine List.map_congr_left fun col _ => (colContents_untimed now col).symm.trans ?_
    rw [colContents, colContents, htexts]
    rfl
  · refine loadedColNum_eq ?_
    rw [hcolNum]
    exact hb'.stored_le
  · rw [htexts, hcolNum]
    exact hload
  · intro hadd
    exact (congrArg (vc.addNewNameBtn || ·) hadd).trans (Bool.or_true _)

end CompareMainVC

/-- One more save. -/
theorem App.Inv.saved_step {s s' : App} {e : Event} {vc : CompareMainVC} (hinv : s.Inv)
    (hvc : s.editor = some vc) (h : vc.Saved s.db s.width) (hsave : e.isSave)
    (he : app.enabled s e) (hs : app.step s e = some s') :
    s'.untimed = s.untimed ∧ s'.editor = some vc ∧ vc.Saved s'.db s'.width := by
  cases hinv.handled he hs with
  | @save vc' now writes reads outcome hed hdata =>
    obtain rfl : vc = vc' := Option.some_inj.mp (hvc.symm.trans hed)
    have hsame := h.saveData (hinv.editor vc hvc) hdata
    have hafter := h.congr hsame
    have hvc' : vc.redisplayed reads s.width (Throwing.store outcome) = vc :=
      hafter.redisplayed reads
    refine ⟨?_, congrArg some hvc', hafter⟩
    show App.mk _ _ _ _ = App.mk _ _ _ _
    rw [hvc', hvc]
    exact congrArg (App.mk · _ _ _) hsame
  | _ => exact hsave.elim

/-- **Saving again.**  After a save whose writes succeed, any number of further
saves, at whatever times and whatever fails in them, change timestamps at most:
the editor and the tables, their order included, stay as that save left them. -/
theorem saved_again {s t u : App} {now : String} {writes : Writes} {reads : Reads}
    {es : List Event} (hs : Reachable s)
    (hsave : app.Run s [.saveBtnDidTap now writes reads] t) (hopens : writes.opens = true)
    (hwrites : ∀ i, writes.write i = true) (hes : ∀ e ∈ es, e.isSave) (hrun : app.Run t es u) :
    u.untimed = t.untimed := by
  obtain ⟨he, hstep⟩ := EventSystem.run_single_iff.mp hsave
  have ht : t.Inv := hs.inv.step he hstep
  have hsaved : ∃ vc, t.editor = some vc ∧ vc.Saved t.db t.width := by
    cases hs.inv.handled he hstep with
    | @save vc _ _ _ outcome hed hdata =>
      exact ⟨_, rfl, (hs.inv.editor vc hed).saved hs.inv.keys hopens hwrites hdata reads s.width⟩
  obtain ⟨vc, hvc, h⟩ := hsaved
  have hall : u.Inv ∧ u.untimed = t.untimed ∧ u.editor = some vc ∧ vc.Saved u.db u.width :=
    hrun.invariant_on (I := fun v => v.Inv ∧ v.untimed = t.untimed ∧ v.editor = some vc ∧
        vc.Saved v.db v.width)
      (fun ⟨hi, hsame, hed, h⟩ hsave he hstep => by
        obtain ⟨hsame', hed', h'⟩ := hi.saved_step hed h hsave he hstep
        exact ⟨hi.step he hstep, hsame'.trans hsame, hed', h'⟩)
      hes ⟨ht, rfl, hvc, h⟩
  exact hall.2.1

/-- A save that fails, and one that does not. -/
def savedTwiceMore : List Event :=
  [.saveBtnDidTap "2019/01/01" (.failingAt 0) .ok, .saveBtnDidTap "2019/01/02" .ok .ok]

theorem savedTwiceMore_isSome :
    (app.exec App.init (savedAt "2018/12/01" ++ savedTwiceMore)).isSome = true := by
  decide +kernel

theorem saved_again_savedTwiceMore : ∃ s t u, app.Run App.init titled s ∧
    app.Run s [.saveBtnDidTap "2018/12/01" .ok .ok] t ∧ app.Run t savedTwiceMore u ∧
    u.untimed = t.untimed := by
  obtain ⟨t, ht, hu⟩ :=
    EventSystem.run_append_iff.mp (EventSystem.run_get_exec savedTwiceMore_isSome)
  obtain ⟨s, hs, hsave⟩ := EventSystem.run_append_iff.mp ht
  have hsaves : ∀ e ∈ savedTwiceMore, e.isSave :=
    List.forall_mem_cons.mpr ⟨trivial, List.forall_mem_singleton.mpr trivial⟩
  exact ⟨s, t, _, hs, hsave, hu, saved_again ⟨_, hs⟩ hsave rfl (fun _ => rfl) hsaves hu⟩

end HikakuKun
