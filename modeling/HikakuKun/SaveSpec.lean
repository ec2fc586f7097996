/-
What a save does to the store.

* `Written` — the editor's title, headings and first `j` columns are what the
  store holds for its group, and no other group changed;
* `updateBlock_eq` — the update transaction writes the whole form, or traps
  when one of the first two columns is missing;
* `saveData_cases` — every outcome of a save that does not trap: the store as
  it was, the whole form written, or (insert branch only) a part of it.
-/
import HikakuKun.StoreKeys

namespace HikakuKun

namespace CompareMainVC

open Realm
open CompareContentsRealm (firstWithId)

variable {vc : CompareMainVC} {now : String} {db db' : Realm} {writes : Writes} {j : ℕ}

@[simp] theorem colContents_groupId (col : ℕ) : (vc.colContents now col).groupId = vc.groupId := by
  unfold colContents
  split <;> rfl

@[simp] theorem colContents_id (col : ℕ) : (vc.colContents now col).id = col := by
  unfold colContents
  split <;> rfl

theorem colContents_of_fin (c : Fin 5) :
    vc.colContents now c =
      { groupId := vc.groupId
        id := c
        name := vc.texts (.nameTF c)
        content := fun k => vc.texts (.contentTF c k)
        memo := vc.texts (.memoTV c)
        timestamp := now } :=
  dif_pos c.isLt

/-- Updating a stored column of the group gives the record an insert builds. -/
theorem updateContent_eq {c : Fin 5} {content : CompareContentsRealm}
    (hg : content.groupId = vc.groupId) (hc : content.id = c) :
    vc.updateContent now c content = vc.colContents now c := by
  rw [colContents_of_fin, updateContent, hg, hc]

theorem updateItems_eq {item : CompareItemRealm} (hg : item.groupId = vc.groupId) :
    vc.updateItems now item = vc.colItem now := by
  rw [updateItems, colItem, hg]

/-- The store holds the editor's title, headings and first `j` columns for
its group, and agrees with `db` on the other groups. -/
structure Written (vc : CompareMainVC) (now : String) (db db' : Realm) (j : ℕ) : Prop where
  items : db'.itemsOf vc.groupId = [vc.colItem now]
  same : SameElsewhere vc.groupId db db'
  numbered : db'.ColumnsNumbered vc.groupId
  length : (db'.contentsOf vc.groupId).length = max (db.contentsOf vc.groupId).length j
  take : (db'.contentsOf vc.groupId).take j = (List.range j).map (vc.colContents now)

theorem Written.contents (h : vc.Written now db db' j)
    (hj : (db.contentsOf vc.groupId).length ≤ j) :
    db'.contentsOf vc.groupId = (List.range j).map (vc.colContents now) := by
  rw [← h.take, List.take_of_length_le (by rw [h.length]; omega)]

/-- The stored values of what was written are the texts of the editor. -/
theorem Written.stored (h : vc.Written now db db' j) {f : Field} (hf : f.Within j) :
    db'.stored vc.groupId f = some (vc.texts f) := by
  have hcolumn : ∀ c : Fin 5, c.val < j →
      firstWithId (db'.contentsOf vc.groupId) c = some (vc.colContents now c) := by
    intro c hc
    rw [h.numbered.firstWithId]
    have hget := congrArg (fun l => l[c.val]?) h.take
    simpa [List.getElem?_take, hc] using hget
  cases f with
  | groupNameTF => rw [Realm.stored, h.items]; rfl
  | itemTF k => rw [Realm.stored, h.items]; rfl
  | nameTF c => rw [Realm.stored, hcolumn c hf, colContents_of_fin]; rfl
  | contentTF c k => rw [Realm.stored, hcolumn c hf, colContents_of_fin]; rfl
  | memoTV c => rw [Realm.stored, hcolumn c hf, colContents_of_fin]; rfl

theorem Written.mem_contents {content : CompareContentsRealm} (h : vc.Written now db db' j)
    (hj : (db.contentsOf vc.groupId).length ≤ j) (hc : content ∈ db'.contents) :
    content ∈ db.contents ∨ ∃ col < j, content = vc.colContents now col := by
  have hgroup : content ∈ db'.contentsOf content.groupId := Table.mem_group.mpr ⟨hc, rfl⟩
  by_cases hg : content.groupId = vc.groupId
  · rw [hg, h.contents hj] at hgroup
    obtain ⟨col, hcol, rfl⟩ := List.mem_map.mp hgroup
    exact .inr ⟨col, List.mem_range.mp hcol, rfl⟩
  · rw [h.same.contents _ hg] at hgroup
    exact .inl (Table.mem_group.mp hgroup).1

theorem Written.keys (h : vc.Written now db db' j) (hk : db.Keys) (hj : j ≤ 5) : db'.Keys := by
  refine hk.of_sameElsewhere h.same ⟨?_, ?_, h.numbered, ?_⟩
  · rw [h.items]
    exact le_rfl
  · rw [h.items]
    exact fun _ => List.cons_ne_nil _ _
  · have := (hk vc.groupId).le_five
    rw [h.length]
    omega

/-! ### Insert -/

/-- The store after the item transaction and the first `j` column
transactions of an insert. -/
def inserted (vc : CompareMainVC) (now : String) (db : Realm) (j : ℕ) : Realm where
  items := db.items ++ [vc.colItem now]
  contents := db.contents ++ (List.range j).map (vc.colContents now)

theorem foldl_addContents (db : Realm) (j : ℕ) :
    (List.range j).foldl (fun db col => db.addContents (vc.colContents now col)) db =
      { db with contents := db.contents ++ (List.range j).map (vc.colContents now) } := by
  induction j with
  | zero => simp
  | succ j ih =>
    rw [List.range_succ, List.foldl_append, ih]
    simp [addContents]

theorem insertData_cases (vc : CompareMainVC) (now : String) (writes : Writes) (db : Realm) :
    ((writes.opens = false ∨ writes.write 0 = false) ∧ vc.insertData now writes db = .error db) ∨
    (writes.opens = true ∧ writes.write 0 = true ∧
      (∀ i < vc.colNum, writes.write (i + 1) = true) ∧
      vc.insertData now writes db = .ok (vc.inserted now db vc.colNum)) ∨
    (writes.opens = true ∧ writes.write 0 = true ∧
      ∃ j < vc.colNum, (∀ i < j, writes.write (i + 1) = true) ∧ writes.write (j + 1) = false ∧
        vc.insertData now writes db = .error (vc.inserted now db j)) := by
  rw [insertData]
  cases hopens : writes.opens with
  | false => exact .inl ⟨.inl rfl, rfl⟩
  | true =>
    cases hitem : writes.write 0 with
    | false => exact .inl ⟨.inr rfl, rfl⟩
    | true =>
      simp only [Throwing.attempt_true, bind, Except.bind, id_eq]
      rcases Throwing.foldlM_range_attempt_cases (fun col => writes.write (col + 1))
        (fun col => addContents (vc.colContents now col)) (db.addItem (vc.colItem now)) vc.colNum
        with ⟨hall, hok⟩ | ⟨j, hj, hbefore, hfail, herr⟩
      · rw [foldl_addContents] at hok
        exact .inr (.inl ⟨trivial, trivial, hall, hok⟩)
      · rw [foldl_addContents] at herr
        exact .inr (.inr ⟨trivial, trivial, j, hj, hbefore, hfail, herr⟩)

/-- Whatever an insert leaves behind, it added records of the editor's group
and changed none. -/
theorem insertData_extends (vc : CompareMainVC) (now : String) (writes : Writes) (db : Realm) :
    ∃ items contents,
      (Throwing.store (vc.insertData now writes db)).items = db.items ++ items ∧
      (Throwing.store (vc.insertData now writes db)).contents = db.contents ++ contents ∧
      (∀ item ∈ items, item.groupId = vc.groupId) ∧
      ∀ content ∈ contents, content.groupId = vc.groupId := by
  have hinserted : ∀ j, ∃ items contents,
      (vc.inserted now db j).items = db.items ++ items ∧
      (vc.inserted now db j).contents = db.contents ++ contents ∧
      (∀ item ∈ items, item.groupId = vc.groupId) ∧
      ∀ content ∈ contents, content.groupId = vc.groupId := by
    intro j
    refine ⟨_, _, rfl, rfl, ?_, ?_⟩
    · intro item hi
      rw [List.mem_singleton.mp hi]
      rfl
    · intro content hc
      obtain ⟨col, -, rfl⟩ := List.mem_map.mp hc
      exact colContents_groupId col
  rcases insertData_cases vc now writes db with
    ⟨-, heq⟩ | ⟨-, -, -, heq⟩ | ⟨-, -, j, -, -, -, heq⟩
  · rw [heq]
    exact ⟨[], [], by simp, by simp, by simp, by simp⟩
  · rw [heq]
    exact hinserted _
  · rw [heq]
    exact hinserted j

/-- An insert under a group id that is not in use writes its columns. -/
theorem inserted_written (hitems : db.itemsOf vc.groupId = [])
    (hcontents : db.contentsOf vc.groupId = []) (j : ℕ) :
    vc.Written now db (vc.inserted now db j) j := by
  have hself : (vc.inserted now db j).contentsOf vc.groupId =
      (List.range j).map (vc.colContents now) := by
    rw [contentsOf, inserted, Table.group_append, ← contentsOf, hcontents, List.nil_append]
    refine Table.group_eq_self fun content hc => ?_
    obtain ⟨col, -, rfl⟩ := List.mem_map.mp hc
    exact colContents_groupId col
  refine ⟨?_, ⟨?_, ?_⟩, ?_, ?_, ?_⟩
  · have : (vc.inserted now db j).itemsOf vc.groupId = (db.addItem (vc.colItem now)).itemsOf _ := rfl
    rw [this, itemsOf_addItem, hitems, List.nil_append]
    exact if_pos rfl
  · intro g hg
    have : (vc.inserted now db j).itemsOf g = (db.addItem (vc.colItem now)).itemsOf g := rfl
    have hne : (vc.colItem now).groupId ≠ g := Ne.symm hg
    rw [this, itemsOf_addItem, if_neg hne, List.append_nil]
  · intro g hg
    rw [contentsOf, inserted, Table.group_append, ← contentsOf]
    rw [Table.group_eq_nil_iff.mpr, List.append_nil]
    intro content hc
    obtain ⟨col, -, rfl⟩ := List.mem_map.mp hc
    rw [colContents_groupId]
    exact Ne.symm hg
  · rw [ColumnsNumbered, hself]
    exact Table.numbered_map_range (fun i => colContents_id i) j
  · rw [hself, hcontents]
    simp
  · rw [hself, List.take_of_length_le (by simp)]

/-! ### Update -/

theorem Written.modifyItem (now : String) (hk : db.Keys) (hitems : db.itemsOf vc.groupId ≠ []) :
    vc.Written now db (db.modifyItem vc.groupId (vc.updateItems now)) 0 := by
  have hsame : ∀ item, (vc.updateItems now item).groupId = item.groupId := fun _ => rfl
  refine ⟨?_, ⟨fun g hg => itemsOf_modifyItem_of_ne hsame hg, fun g _ => rfl⟩,
    (hk vc.groupId).numbered, by simp, rfl⟩
  obtain ⟨item, hitem⟩ := (hk vc.groupId).exists_itemsOf_eq hitems
  have hg : item.groupId = vc.groupId := by
    have hmem : item ∈ db.itemsOf vc.groupId := by
      rw [hitem]
      exact List.mem_singleton_self item
    exact (mem_itemsOf.mp hmem).2
  rw [itemsOf_modifyItem hsame, hitem]
  simp [Table.modifyFirst, hg, updateItems_eq]

/-- Writing column `j` after the columns before it. -/
theorem Written.updateOrInsert {c : Fin 5} (h : vc.Written now db db' c)
    (hnum : db.ColumnsNumbered vc.groupId) (hc : c.val < vc.colNum) :
    vc.Written now db
      (vc.updateOrInsert now vc.groupId (db.contentsOf vc.groupId) c db') (c + 1) := by
  have hle : c.val ≤ (db'.contentsOf vc.groupId).length := by
    rw [h.length]
    exact Nat.le_max_right _ _
  have hsame : ∀ content, (vc.updateContent now c content).groupId = content.groupId :=
    fun _ => rfl
  have hwrite : vc.updateOrInsert now vc.groupId (db.contentsOf vc.groupId) c db' =
      if (firstWithId (db.contentsOf vc.groupId) c).isSome then
        db'.modifyContents vc.groupId c (vc.updateContent now c)
      else db'.addContents (vc.colContents now c) := if_pos hc
  -- the lookup before the transaction and one made now agree on column `c`
  have hfirst : (firstWithId (db.contentsOf vc.groupId) c).isSome =
      (firstWithId (db'.contentsOf vc.groupId) c).isSome := by
    rw [hnum.firstWithId, h.numbered.firstWithId, Bool.eq_iff_iff]
    simp [h.length]
  have hself : (vc.updateOrInsert now vc.groupId (db.contentsOf vc.groupId) c db').contentsOf
      vc.groupId = Table.upsert CompareContentsRealm.id c (vc.updateContent now c)
        (vc.colContents now c) (db'.contentsOf vc.groupId) := by
    rw [hwrite, hfirst, Table.upsert, firstWithId]
    split
    · rw [contentsOf_modifyContents hsame]
    · simp
  have hother : SameElsewhere vc.groupId db'
      (vc.updateOrInsert now vc.groupId (db.contentsOf vc.groupId) c db') := by
    rw [hwrite]
    split
    · exact ⟨fun g _ => rfl, fun g hg => contentsOf_modifyContents_of_ne hsame hg⟩
    · refine ⟨fun g _ => rfl, ?_⟩
      intro g hg
      simp [Ne.symm hg]
  have hitems : (vc.updateOrInsert now vc.groupId (db.contentsOf vc.groupId) c db').itemsOf
      vc.groupId = db'.itemsOf vc.groupId := by
    rw [hwrite]
    split <;> rfl
  have hnew : ∀ content ∈ db'.contentsOf vc.groupId, content.id = c →
      vc.updateContent now c content = vc.colContents now c :=
    fun content hmem hid => updateContent_eq (Table.mem_group.mp hmem).2 hid
  refine ⟨hitems.trans h.items, h.same.trans hother, ?_, ?_, ?_⟩
  -- inside the group, a write of column `j` is an upsert at number `j`
  · rw [ColumnsNumbered, hself]
    exact h.numbered.upsert hle hnew (colContents_id c)
  · rw [hself, Table.length_upsert h.numbered hle hnew, h.length]
    omega
  · rw [hself, Table.take_upsert h.numbered hle hnew, h.take, List.range_succ, List.map_append,
      List.map_singleton]

/-- The same, for the columns the editor may not show. -/
theorem Written.updateOrInsert_min {c : Fin 5} (h : vc.Written now db db' (min c vc.colNum))
    (hnum : db.ColumnsNumbered vc.groupId) :
    vc.Written now db (vc.updateOrInsert now vc.groupId (db.contentsOf vc.groupId) c db')
      (min (c + 1) vc.colNum) := by
  by_cases hc : c.val < vc.colNum
  · rw [min_eq_left (by omega)] at h ⊢
    exact h.updateOrInsert hnum hc
  · rw [CompareMainVC.updateOrInsert, if_neg (by omega)]
    rw [min_eq_right (by omega)] at h ⊢
    exact h

/-- A column that must be there is updated as the others are, or traps. -/
theorem updateFirst_eq {c : Fin 5} (hnum : db.ColumnsNumbered vc.groupId)
    (hc : c.val < vc.colNum) :
    vc.updateFirst now vc.groupId (db.contentsOf vc.groupId) c db' =
      if c.val < (db.contentsOf vc.groupId).length then
        some (vc.updateOrInsert now vc.groupId (db.contentsOf vc.groupId) c db')
      else none := by
  have hshown : vc.colNum ≥ c.val + 1 := hc
  rw [updateFirst, updateOrInsert, if_pos hshown, hnum.firstWithId]
  split
  case isTrue h => simp [h]
  case isFalse h => simp [h]

/-- **The update transaction.**  With two columns stored it writes the title,
the headings and every column of the editor; with fewer it traps. -/
theorem updateBlock_eq (now : String) (hk : db.Keys) (hitems : db.itemsOf vc.groupId ≠ [])
    (htwo : 2 ≤ vc.colNum) (hfive : vc.colNum ≤ 5) :
    if 2 ≤ (db.contentsOf vc.groupId).length then
      ∃ db', vc.updateBlock now ⟨vc.groupId⟩ ⟨vc.groupId⟩ db = some db' ∧
        vc.Written now db db' vc.colNum
    else vc.updateBlock now ⟨vc.groupId⟩ ⟨vc.groupId⟩ db = none := by
  have hnum := (hk vc.groupId).numbered
  rw [updateBlock]
  simp only [updateFirst_eq (c := 0) hnum (show 0 < vc.colNum by omega),
    updateFirst_eq (c := 1) hnum (show 1 < vc.colNum by omega)]
  split
  case isFalse h =>
    by_cases hlen : 0 < (db.contentsOf vc.groupId).length
    · simp [hlen, show ¬ 1 < (db.contentsOf vc.groupId).length by omega]
    · simp [hlen]
  case isTrue h =>
    simp only [Fin.val_zero, Fin.val_one, show 0 < (db.contentsOf vc.groupId).length by omega,
      show 1 < (db.contentsOf vc.groupId).length by omega, if_true, Option.bind_eq_bind,
      Option.bind_some]
    refine ⟨_, rfl, ?_⟩
    -- one column after the other, up to the five there are fields for
    have h0 := Written.modifyItem now hk hitems
    have h1 := Written.updateOrInsert_min (c := 0) (by simpa using h0) hnum
    have h2 := Written.updateOrInsert_min (c := 1) h1 hnum
    have h3 := Written.updateOrInsert_min (c := 2) h2 hnum
    have h4 := Written.updateOrInsert_min (c := 3) h3 hnum
    have h5 := Written.updateOrInsert_min (c := 4) h4 hnum
    rwa [min_eq_right (show vc.colNum ≤ ((4 : Fin 5) : ℕ) + 1 from hfive)] at h5

/-! ### Both branches -/

/-- The insert-or-update test asks whether the group has an item record. -/
theorem groupIdInUse_eq : vc.groupIdInUse ⟨vc.groupId⟩ db = decide (db.itemsOf vc.groupId ≠ []) := by
  have : (db.itemsOf vc.groupId).filter (fun item => item.groupId = vc.groupId) =
      db.itemsOf vc.groupId :=
    List.filter_eq_self.mpr fun item hi => by simpa using (Table.mem_group.mp hi).2
  rw [groupIdInUse, this]
  cases db.itemsOf vc.groupId <;> simp

/-- A save of a group that has no item record inserts. -/
theorem saveData_eq_insertData (now : String) (writes : Writes) (hload : vc.Loaded)
    (hitems : db.itemsOf vc.groupId = []) :
    vc.saveData now writes db = some (vc.insertData now writes db) := by
  rw [saveData, hload.items]
  simp [groupIdInUse_eq, hitems]

/-- A save of a group that has one is a single transaction. -/
theorem saveData_eq_write (now : String) (writes : Writes) (hload : vc.Loaded)
    (hitems : db.itemsOf vc.groupId ≠ []) :
    vc.saveData now writes db = if writes.opens then
        db.write (writes.write 0) (vc.updateBlock now ⟨vc.groupId⟩ ⟨vc.groupId⟩)
      else some (.error db) := by
  rw [saveData, hload.items, hload.contents]
  simp [groupIdInUse_eq, hitems]

/-- Every outcome of `saveData` in an editor with loaded results: a trap, the
store as it was, the whole form, or a part of a new form. -/
theorem saveData_cases (now : String) (writes : Writes) (hk : db.Keys) (hload : vc.Loaded)
    (htwo : 2 ≤ vc.colNum) (hfive : vc.colNum ≤ 5) :
    (db.itemsOf vc.groupId ≠ [] ∧ (db.contentsOf vc.groupId).length < 2 ∧ writes.opens = true ∧
      vc.saveData now writes db = none) ∨
    ((writes.opens = false ∨ writes.write 0 = false) ∧
      vc.saveData now writes db = some (.error db)) ∨
    (∃ db', vc.Written now db db' vc.colNum ∧ vc.saveData now writes db = some (.ok db')) ∨
    (db.itemsOf vc.groupId = [] ∧ writes.opens = true ∧ writes.write 0 = true ∧
      ∃ j < vc.colNum, (∀ i < j, writes.write (i + 1) = true) ∧ writes.write (j + 1) = false ∧
        ∃ db', vc.Written now db db' j ∧ vc.saveData now writes db = some (.error db')) := by
  by_cases hitems : db.itemsOf vc.groupId ≠ []
  · rw [saveData_eq_write now writes hload hitems]
    cases hopens : writes.opens with
    | false => exact .inr (.inl ⟨.inl rfl, rfl⟩)
    | true =>
      have hblock := updateBlock_eq now hk hitems htwo hfive
      split at hblock
      case isFalse hlen =>
        refine .inl ⟨hitems, by omega, rfl, ?_⟩
        simp [Realm.write, hblock]
      case isTrue hlen =>
        obtain ⟨db', heq, hw⟩ := hblock
        cases hwrite : writes.write 0 with
        | false => exact .inr (.inl ⟨.inr rfl, by simp [Realm.write, heq]⟩)
        | true => exact .inr (.inr (.inl ⟨db', hw, by simp [Realm.write, heq]⟩))
  -- no item record, so no columns either: the insert writes into an empty group
  · rw [not_not] at hitems
    rw [saveData_eq_insertData now writes hload hitems]
    have hcontents := (hk vc.groupId).contentsOf_eq_nil hitems
    rcases insertData_cases vc now writes db with
      ⟨hfail, heq⟩ | ⟨-, -, -, heq⟩ | ⟨hopens, hitem, j, hj, hbefore, hcol, heq⟩
    · rw [heq]
      exact .inr (.inl ⟨hfail, rfl⟩)
    · rw [heq]
      exact .inr (.inr (.inl ⟨_, inserted_written hitems hcontents _, rfl⟩))
    · rw [heq]
      exact .inr (.inr (.inr ⟨hitems, hopens, hitem, j, hj, hbefore, hcol, _,
        inserted_written hitems hcontents j, rfl⟩))

/-- Whatever a save leaves behind is the store as it was, or that store with
some first columns of the form written, at least those that were stored. -/
theorem saveData_store {outcome : Except Realm Realm} (hk : db.Keys) (hload : vc.Loaded)
    (htwo : 2 ≤ vc.colNum) (hfive : vc.colNum ≤ 5)
    (hstored : (db.contentsOf vc.groupId).length ≤ vc.colNum)
    (h : vc.saveData now writes db = some outcome) :
    Throwing.store outcome = db ∨
      ∃ j ≤ vc.colNum, (db.contentsOf vc.groupId).length ≤ j ∧
        vc.Written now db (Throwing.store outcome) j := by
  rcases saveData_cases now writes hk hload htwo hfive with
    ⟨-, -, -, heq⟩ | ⟨-, heq⟩ | ⟨db', hw, heq⟩ | ⟨hitems, -, -, j, hj, -, -, db', hw, heq⟩
  · rw [heq] at h
    cases h
  · rw [heq] at h
    cases h
    exact .inl rfl
  · rw [heq] at h
    cases h
    exact .inr ⟨_, le_rfl, hstored, hw⟩
  · rw [heq] at h
    cases h
    refine .inr ⟨j, hj.le, ?_, hw⟩
    rw [(hk vc.groupId).contentsOf_eq_nil hitems]
    exact Nat.zero_le j

/-- When every operation succeeds, the whole form is written. -/
theorem saveData_written {outcome : Except Realm Realm} (hk : db.Keys) (hload : vc.Loaded)
    (htwo : 2 ≤ vc.colNum) (hfive : vc.colNum ≤ 5) (hopens : writes.opens = true)
    (hwrites : ∀ i, writes.write i = true) (h : vc.saveData now writes db = some outcome) :
    vc.Written now db (Throwing.store outcome) vc.colNum := by
  rcases saveData_cases now writes hk hload htwo hfive with
    ⟨-, -, -, heq⟩ | ⟨hfail, -⟩ | ⟨db', hw, heq⟩ | ⟨-, -, -, j, -, -, hfail, -⟩
  · rw [heq] at h
    cases h
  · rcases hfail with hfail | hfail
    · rw [hopens] at hfail
      cases hfail
    · rw [hwrites] at hfail
      cases hfail
  · rw [heq] at h
    cases h
    exact hw
  · rw [hwrites] at hfail
    cases hfail

theorem saveData_eq_none_iff (hk : db.Keys) (hload : vc.Loaded) (htwo : 2 ≤ vc.colNum)
    (hfive : vc.colNum ≤ 5) :
    vc.saveData now writes db = none ↔ db.itemsOf vc.groupId ≠ [] ∧
      (db.contentsOf vc.groupId).length < 2 ∧ writes.opens = true := by
  constructor
  · intro h
    rcases saveData_cases now writes hk hload htwo hfive with
      ⟨hitems, hlen, hopens, -⟩ | ⟨-, heq⟩ | ⟨db', -, heq⟩ | ⟨-, -, -, j, -, -, -, db', -, heq⟩
    · exact ⟨hitems, hlen, hopens⟩
    all_goals
      rw [heq] at h
      cases h
  · rintro ⟨hitems, hlen, hopens⟩
    have hblock := updateBlock_eq now hk hitems htwo hfive
    rw [if_neg (by omega)] at hblock
    rw [saveData_eq_write now writes hload hitems]
    simp [hopens, Realm.write, hblock]

end CompareMainVC

end HikakuKun
