/-
The store, group by group.

The tables have no keys, but the app keeps them as if they had: one item
record for a group, columns only under an item, and the columns of a group
numbered from 0 in table order, at most five of them (`Realm.Keys`).  All of
this is said group by group, so an operation that touches one group only has
to be looked at there (`SameElsewhere`, `Keys.of_sameElsewhere`).
-/
import HikakuKun.SaveData
import HikakuKun.ViewController
import HikakuKun.ViewDidLoad

namespace HikakuKun

open CompareContentsRealm (firstWithId)

namespace Realm

variable {db db' db'' : Realm} {g g' : ℤ}

/-! ### The operations seen from one group -/

@[simp] theorem itemsOf_addItem (item : CompareItemRealm) :
    (db.addItem item).itemsOf g = db.itemsOf g ++ if item.groupId = g then [item] else [] := by
  rw [itemsOf, addItem, Table.group_append]
  congr 1
  by_cases h : item.groupId = g <;> simp [Table.group, h]

@[simp] theorem contentsOf_addItem (item : CompareItemRealm) :
    (db.addItem item).contentsOf g = db.contentsOf g := rfl

@[simp] theorem itemsOf_addContents (content : CompareContentsRealm) :
    (db.addContents content).itemsOf g = db.itemsOf g := rfl

@[simp] theorem contentsOf_addContents (content : CompareContentsRealm) :
    (db.addContents content).contentsOf g =
      db.contentsOf g ++ if content.groupId = g then [content] else [] := by
  rw [contentsOf, addContents, Table.group_append]
  congr 1
  by_cases h : content.groupId = g <;> simp [Table.group, h]

@[simp] theorem contentsOf_modifyItem (f : CompareItemRealm → CompareItemRealm) :
    (db.modifyItem g f).contentsOf g' = db.contentsOf g' := rfl

@[simp] theorem itemsOf_modifyContents (c : ℕ) (f : CompareContentsRealm → CompareContentsRealm) :
    (db.modifyContents g c f).itemsOf g' = db.itemsOf g' := rfl

theorem itemsOf_modifyItem {f : CompareItemRealm → CompareItemRealm}
    (hf : ∀ item, (f item).groupId = item.groupId) :
    (db.modifyItem g f).itemsOf g =
      Table.modifyFirst (fun item => item.groupId = g) f (db.itemsOf g) :=
  Table.group_modifyFirst (fun _ h => of_decide_eq_true h) hf

theorem itemsOf_modifyItem_of_ne {f : CompareItemRealm → CompareItemRealm}
    (hf : ∀ item, (f item).groupId = item.groupId) (hg : g' ≠ g) :
    (db.modifyItem g f).itemsOf g' = db.itemsOf g' :=
  Table.group_modifyFirst_of_ne (fun _ h => of_decide_eq_true h) hf hg

theorem contentsOf_modifyContents {c : ℕ} {f : CompareContentsRealm → CompareContentsRealm}
    (hf : ∀ content, (f content).groupId = content.groupId) :
    (db.modifyContents g c f).contentsOf g =
      Table.modifyFirst (fun content => content.id = c) f (db.contentsOf g) := by
  rw [contentsOf, modifyContents, Table.group_modifyFirst (fun _ h => (of_decide_eq_true h).1) hf]
  refine Table.modifyFirst_congr fun content hc => ?_
  simp [(Table.mem_group.mp hc).2]

theorem contentsOf_modifyContents_of_ne {c : ℕ}
    {f : CompareContentsRealm → CompareContentsRealm}
    (hf : ∀ content, (f content).groupId = content.groupId) (hg : g' ≠ g) :
    (db.modifyContents g c f).contentsOf g' = db.contentsOf g' :=
  Table.group_modifyFirst_of_ne (fun _ h => (of_decide_eq_true h).1) hf hg

/-! ### Keys -/

/-- `db'` differs from `db` at most in the records of group `g`. -/
structure SameElsewhere (g : ℤ) (db db' : Realm) : Prop where
  items : ∀ g' ≠ g, db'.itemsOf g' = db.itemsOf g'
  contents : ∀ g' ≠ g, db'.contentsOf g' = db.contentsOf g'

theorem SameElsewhere.trans (h : SameElsewhere g db db') (h' : SameElsewhere g db' db'') :
    SameElsewhere g db db'' :=
  ⟨fun g' hg => (h'.items g' hg).trans (h.items g' hg),
    fun g' hg => (h'.contents g' hg).trans (h.contents g' hg)⟩

/-- The keys of one group. -/
structure GroupKeys (db : Realm) (g : ℤ) : Prop where
  item : (db.itemsOf g).length ≤ 1
  noOrphan : db.contentsOf g ≠ [] → db.itemsOf g ≠ []
  numbered : db.ColumnsNumbered g
  le_five : (db.contentsOf g).length ≤ 5

theorem GroupKeys.contentsOf_eq_nil (h : db.GroupKeys g) (hitems : db.itemsOf g = []) :
    db.contentsOf g = [] := by
  by_contra hne
  exact h.noOrphan hne hitems

/-- A group without an item record has no stored value. -/
theorem GroupKeys.stored_eq_none (h : db.GroupKeys g) (hitems : db.itemsOf g = []) (f : Field) :
    db.stored g f = none := by
  have hcontents := h.contentsOf_eq_nil hitems
  cases f with
  | groupNameTF => rw [stored, hitems]; rfl
  | itemTF k => rw [stored, hitems]; rfl
  | nameTF c => rw [stored, hcontents]; rfl
  | contentTF c k => rw [stored, hcontents]; rfl
  | memoTV c => rw [stored, hcontents]; rfl

/-- The record found under an id is the one with this id. -/
theorem GroupKeys.firstWithId_eq_some_iff (h : db.GroupKeys g) {c : ℕ}
    {content : CompareContentsRealm} :
    firstWithId (db.contentsOf g) c = some content ↔
      content ∈ db.contentsOf g ∧ content.id = c := by
  have hnum := Table.numbered_iff.mp h.numbered
  rw [h.numbered.firstWithId]
  constructor
  · intro hget
    obtain ⟨hc, rfl⟩ := List.getElem?_eq_some_iff.mp hget
    exact ⟨List.getElem_mem hc, hnum c hc⟩
  · rintro ⟨hmem, rfl⟩
    obtain ⟨i, hi, rfl⟩ := List.getElem_of_mem hmem
    rw [hnum i hi, List.getElem?_eq_getElem hi]

/-- The group has exactly one item record. -/
theorem GroupKeys.exists_itemsOf_eq (h : db.GroupKeys g) (hg : db.itemsOf g ≠ []) :
    ∃ item, db.itemsOf g = [item] :=
  List.length_eq_one_iff.mp
    (Nat.le_antisymm h.item (Nat.one_le_iff_ne_zero.mpr fun h0 =>
      hg (List.eq_nil_of_length_eq_zero h0)))

/-- The fields of a stored group's own columns have a stored value. -/
theorem GroupKeys.exists_stored (h : db.GroupKeys g) (hg : db.itemsOf g ≠ []) {f : Field}
    (hf : f.Within (db.contentsOf g).length) : ∃ v, db.stored g f = some v := by
  obtain ⟨item, hitem⟩ := h.exists_itemsOf_eq hg
  have hcolumn : ∀ c : ℕ, c < (db.contentsOf g).length →
      ∃ content, firstWithId (db.contentsOf g) c = some content :=
    fun c hc => ⟨_, (h.numbered.firstWithId c).trans (List.getElem?_eq_getElem hc)⟩
  cases f with
  | groupNameTF => exact ⟨item.groupName, by rw [stored, hitem]; rfl⟩
  | itemTF k => exact ⟨item.item k, by rw [stored, hitem]; rfl⟩
  | nameTF c =>
    obtain ⟨content, hc⟩ := hcolumn c hf
    exact ⟨content.name, by rw [stored, hc]; rfl⟩
  | contentTF c k =>
    obtain ⟨content, hc⟩ := hcolumn c hf
    exact ⟨content.content k, by rw [stored, hc]; rfl⟩
  | memoTV c =>
    obtain ⟨content, hc⟩ := hcolumn c hf
    exact ⟨content.memo, by rw [stored, hc]; rfl⟩

/-- The key invariant of the store. -/
def Keys (db : Realm) : Prop := ∀ g, db.GroupKeys g

theorem keys_empty : Keys ⟨[], []⟩ := fun _ =>
  ⟨Nat.zero_le _, fun h => absurd rfl h, Table.numbered_nil, Nat.zero_le _⟩

theorem Keys.of_sameElsewhere (h : db.Keys) (hsame : SameElsewhere g db db')
    (hg : db'.GroupKeys g) : db'.Keys := by
  intro g'
  by_cases hgg : g' = g
  · rw [hgg]
    exact hg
  · obtain ⟨h1, h2, h3, h4⟩ := h g'
    rw [← hsame.items g' hgg] at h1 h2
    rw [← hsame.contents g' hgg] at h2 h4
    rw [ColumnsNumbered, ← hsame.contents g' hgg] at h3
    exact ⟨h1, h2, h3, h4⟩

/-- No column without its item. -/
theorem Keys.exists_item (h : db.Keys) {content : CompareContentsRealm}
    (hc : content ∈ db.contents) : ∃ item ∈ db.items, item.groupId = content.groupId := by
  have hne : db.contentsOf content.groupId ≠ [] :=
    List.ne_nil_of_mem (mem_contentsOf.mpr ⟨hc, rfl⟩)
  obtain ⟨item, hitem⟩ := List.exists_mem_of_ne_nil _ ((h content.groupId).noOrphan hne)
  exact ⟨item, mem_itemsOf.mp hitem⟩

/-! ### Deleting a group -/

theorem deleteGroup_sameElsewhere : SameElsewhere g db (ViewController.deleteGroup g db) :=
  ⟨fun _ hg => Table.group_erase_of_ne hg, fun _ hg => Table.group_erase_of_ne hg⟩

theorem itemsOf_deleteGroup : (ViewController.deleteGroup g db).itemsOf g = [] :=
  Table.group_erase_self

theorem contentsOf_deleteGroup : (ViewController.deleteGroup g db).contentsOf g = [] :=
  Table.group_erase_self

theorem Keys.deleteGroup (h : db.Keys) (g : ℤ) : (ViewController.deleteGroup g db).Keys := by
  refine h.of_sameElsewhere deleteGroup_sameElsewhere ⟨?_, ?_, ?_, ?_⟩
  · rw [itemsOf_deleteGroup]
    exact Nat.zero_le _
  · exact fun hne => absurd contentsOf_deleteGroup hne
  · rw [ColumnsNumbered, contentsOf_deleteGroup]
    exact Table.numbered_nil
  · rw [contentsOf_deleteGroup]
    exact Nat.zero_le _

end Realm

end HikakuKun
