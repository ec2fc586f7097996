/-
The tables refine a finite map of forms.

* `Realm.Refines` — group by group, the tables hold the form of the map;
* `CompareMainVC.Written.holds` — both branches of a save leave the editor's form,
  whatever columns were stored before;
* `App.Inv.refines_step` — while Realm operations succeed no event traps, and each does
  to the tables what its operation does to the map;
* `tables_refine_forms` — along whole runs, and for saves repeated.
-/
import HikakuKun.Failures
import HikakuKun.Forms

namespace HikakuKun

namespace Realm

def columnOf (content : CompareContentsRealm) : Column :=
  ⟨content.name, content.content, content.memo⟩

def formOf (item : CompareItemRealm) (contents : List CompareContentsRealm) : Form :=
  ⟨item.groupName, item.item, contents.map columnOf⟩

/-- The records of group `g` are those of a form, its columns in the order of
their ids and at least two of them, or there are none. -/
def Holds (db : Realm) (g : ℤ) : Option Form → Prop
  | none => db.itemsOf g = [] ∧ db.contentsOf g = []
  | some form => db.ColumnsNumbered g ∧ 2 ≤ (db.contentsOf g).length ∧
      ∃ item, db.itemsOf g = [item] ∧ form = formOf item (db.contentsOf g)

def Refines (db : Realm) (m : Forms) : Prop := ∀ g, db.Holds g (m.lookup g)

variable {db db' : Realm} {m : Forms} {g : ℤ} {op : FormOp}

theorem refines_empty : Refines ⟨[], []⟩ ∅ := fun _ => ⟨rfl, rfl⟩

theorem Holds.of_same {form : Option Form} (h : db.Holds g form)
    (hitems : db'.itemsOf g = db.itemsOf g) (hcontents : db'.contentsOf g = db.contentsOf g) :
    db'.Holds g form := by
  cases form with
  | none => exact ⟨hitems.trans h.1, hcontents.trans h.2⟩
  | some form =>
    obtain ⟨hnum, htwo, item, hitem, hform⟩ := h
    rw [← hcontents] at htwo hform
    rw [ColumnsNumbered, ← hcontents] at hnum
    exact ⟨hnum, htwo, item, hitems.trans hitem, hform⟩

theorem Holds.two_le {form : Option Form} (h : db.Holds g form) (hg : db.itemsOf g ≠ []) :
    2 ≤ (db.contentsOf g).length := by
  cases form with
  | none => exact absurd h.1 hg
  | some form => exact h.2.1

/-- An operation on one group has to be looked at there. -/
theorem Refines.of_sameElsewhere (h : db.Refines m) (hsame : SameElsewhere g db db')
    (hop : op.group = some g) (hg : db'.Holds g ((op.apply m).lookup g)) :
    db'.Refines (op.apply m) := by
  intro g'
  by_cases hgg : g' = g
  · rw [hgg]
    exact hg
  · have hne : op.group ≠ some g' := by
      rw [hop]
      exact fun heq => hgg (Option.some_inj.mp heq).symm
    rw [FormOp.lookup_apply_of_ne hne]
    exact (h g').of_same (hsame.items g' hgg) (hsame.contents g' hgg)

end Realm

/-! ### Saves -/

namespace CompareMainVC

def column (vc : CompareMainVC) (c : Fin 5) : Column :=
  ⟨vc.texts (.nameTF c), fun k => vc.texts (.contentTF c k), vc.texts (.memoTV c)⟩

/-- The title, the seven headings and the first `colNum` columns. -/
def form (vc : CompareMainVC) : Form where
  title := vc.texts .groupNameTF
  heading := fun k => vc.texts (.itemTF k)
  columns := ((List.finRange 5).take vc.colNum).map vc.column

variable {vc vc' : CompareMainVC} {now : String} {db db' : Realm}

/-- The form is made of the fields within the first `colNum` columns. -/
theorem form_congr (hcol : vc'.colNum = vc.colNum)
    (h : ∀ f, f.Within vc.colNum → vc'.texts f = vc.texts f) : vc'.form = vc.form := by
  have hcolumns : ((List.finRange 5).take vc.colNum).map vc'.column =
      ((List.finRange 5).take vc.colNum).map vc.column := by
    refine List.map_congr_left fun c hc => ?_
    have hlt : c.val < vc.colNum := by
      obtain ⟨i, hi, rfl⟩ := List.getElem_of_mem hc
      rw [List.length_take] at hi
      simp only [List.getElem_take, List.getElem_finRange, Fin.val_cast]
      omega
    show Column.mk _ _ _ = Column.mk _ _ _
    rw [h (.nameTF c) hlt, h (.memoTV c) hlt, funext fun k => h (.contentTF c k) hlt]
  show Form.mk _ _ _ = Form.mk _ _ _
  rw [h .groupNameTF trivial, funext fun k => h (.itemTF k) trivial, hcol, hcolumns]

/-- A save writes the editor's form. -/
theorem Written.holds (h : vc.Written now db db' vc.colNum)
    (hlen : (db.contentsOf vc.groupId).length ≤ vc.colNum) (htwo : 2 ≤ vc.colNum)
    (hfive : vc.colNum ≤ 5) : db'.Holds vc.groupId (some vc.form) := by
  have hcontents := h.contents hlen
  have hcolumns : ((List.range vc.colNum).map (vc.colContents now)).map Realm.columnOf =
      ((List.finRange 5).take vc.colNum).map vc.column := by
    refine List.ext_getElem ?_ fun i hi _ => ?_
    · simp [hfive]
    · have hi : i < vc.colNum := by simpa using hi
      have hrec : Realm.columnOf (vc.colContents now i) = vc.column ⟨i, by omega⟩ :=
        congrArg Realm.columnOf (colContents_of_fin ⟨i, by omega⟩)
      simp only [List.getElem_map, List.getElem_range, List.getElem_take, List.getElem_finRange,
        hrec]
      rfl
  refine ⟨h.numbered, ?_, vc.colItem now, h.items, ?_⟩
  · rw [h.length]
    omega
  · show Form.mk _ _ _ = Form.mk _ _ _
    rw [hcontents, hcolumns]
    rfl

end CompareMainVC

/-! ### Steps -/

namespace App

/-- A save puts the editor's form, a delete removes the form of its row's
group, and no other event changes a form. -/
def formOp (s : App) : Event → FormOp
  | .saveBtnDidTap _ _ _ =>
    match s.editor with
    | some vc => .put vc.groupId vc.form
    | none => .keep
  | .confirmDelete row _ =>
    match s.list.groupIdList[row]? with
    | some g => .remove g
    | none => .keep
  | _ => .keep

variable {s s' t : App} {e : Event} {m : Forms}

/-- **One step.**  When its Realm operations succeed, an event that can happen
does not trap, and does to the tables what its operation does to the forms. -/
theorem Inv.refines_step (hinv : s.Inv) (hm : s.db.Refines m) (he : app.enabled s e)
    (hok : e.succeeds) :
    ∃ s', app.step s e = some s' ∧ s'.db.Refines ((s.formOp e).apply m) ∧
      (∀ g, (s.formOp e).group ≠ some g →
        s'.db.itemsOf g = s.db.itemsOf g ∧ s'.db.contentsOf g = s.db.contentsOf g) ∧
      (s.formOp e = .keep → s'.db = s.db) := by
  -- a save that would trap needs an item with fewer than two columns
  have hsafe : s.SafeIn e := by
    cases e with
    | addNewHikakuBtnDidTap opens reads => exact fun _ => hok.2
    | didSelectRowAt row select reads => exact hok.2
    | saveBtnDidTap now writes reads =>
      exact fun vc _ _ hitems => (hm vc.groupId).two_le hitems
    | _ => trivial
  obtain ⟨s', hs⟩ := Option.ne_none_iff_exists'.mp ((hinv.step_ne_none_iff he).mpr hsafe)
  refine ⟨s', hs, ?_⟩
  have hkeep : s.formOp e = .keep → s'.db = s.db →
      s'.db.Refines ((s.formOp e).apply m) ∧
      (∀ g, (s.formOp e).group ≠ some g →
        s'.db.itemsOf g = s.db.itemsOf g ∧ s'.db.contentsOf g = s.db.contentsOf g) ∧
      (s.formOp e = .keep → s'.db = s.db) := by
    intro hop hdb
    rw [hop, hdb]
    exact ⟨hm, fun g _ => ⟨rfl, rfl⟩, fun _ => rfl⟩
  cases hinv.handled he hs with
  | notPresented reads => exact hkeep rfl rfl
  | addNew hed hmax hreads => exact hkeep rfl rfl
  | select hed hrow hg hreads => exact hkeep rfl rfl
  | edit hed hf => exact hkeep rfl rfl
  | addName hed hbtn => exact hkeep rfl rfl
  | addItem hed hbtn => exact hkeep rfl rfl
  | back => exact hkeep rfl rfl
  | swipe => exact hkeep rfl rfl
  | layout => exact hkeep rfl rfl
  | launch => exact hkeep rfl rfl
  | @delete row g delete hed hrow hg =>
    have hop : s.formOp (.confirmDelete row delete) = .remove g := by
      rw [formOp, hg]
    have hdb : ViewController.deleted delete g s.db = ViewController.deleteGroup g s.db :=
      if_pos hok
    have hsame := @Realm.deleteGroup_sameElsewhere s.db g
    rw [hop]
    show Realm.Refines (ViewController.deleted delete g s.db) _ ∧ _
    rw [hdb]
    refine ⟨hm.of_sameElsewhere hsame rfl ?_, ?_, fun h => by cases h⟩
    · rw [FormOp.apply, Finmap.lookup_erase]
      exact ⟨Realm.itemsOf_deleteGroup, Realm.contentsOf_deleteGroup⟩
    · intro g' hg'
      have hne : g' ≠ g := fun h => hg' (congrArg some h.symm)
      exact ⟨hsame.items g' hne, hsame.contents g' hne⟩
  | @save vc now writes reads outcome hed hsave =>
    have hop : s.formOp (.saveBtnDidTap now writes reads) = .put vc.groupId vc.form := by
      rw [formOp, hed]
    have hb := hinv.editor vc hed
    have hw := CompareMainVC.saveData_written hinv.keys hb.loaded hb.two_le_colNum hb.colNum_le
      hok.1 hok.2.1 hsave
    rw [hop]
    refine ⟨hm.of_sameElsewhere hw.same rfl ?_, ?_, fun h => by cases h⟩
    · rw [FormOp.apply, Finmap.lookup_insert]
      exact hw.holds hb.stored_le hb.two_le_colNum hb.colNum_le
    · intro g' hg'
      have hne : g' ≠ vc.groupId := fun h => hg' (congrArg some h.symm)
      exact ⟨hw.same.items g' hne, hw.same.contents g' hne⟩

/-- A successful save puts the editor's form and leaves it in the editor. -/
theorem Inv.refines_save (hinv : s.Inv) (hm : s.db.Refines m) {vc : CompareMainVC}
    (hed : s.editor = some vc) {now : String} {writes : Writes} {reads : Reads}
    (hok : (Event.saveBtnDidTap now writes reads).succeeds)
    (he : app.enabled s (.saveBtnDidTap now writes reads))
    (hs : app.step s (.saveBtnDidTap now writes reads) = some s') :
    s'.db.Refines ((FormOp.put vc.groupId vc.form).apply m) ∧
      ∃ vc', s'.editor = some vc' ∧ vc'.groupId = vc.groupId ∧ vc'.form = vc.form := by
  constructor
  · obtain ⟨s'', hs'', hm', -⟩ := hinv.refines_step hm he hok
    obtain rfl : s' = s'' := Option.some_inj.mp (hs.symm.trans hs'')
    rwa [formOp, hed] at hm'
  cases hinv.handled he hs with
  | @save vc₀ _ _ _ outcome hed₀ hsave =>
    obtain rfl : vc = vc₀ := Option.some_inj.mp (hed.symm.trans hed₀)
    have hb := hinv.editor vc hed
    have hw := CompareMainVC.saveData_written hinv.keys hb.loaded hb.two_le_colNum hb.colNum_le
      hok.1 hok.2.1 hsave
    obtain ⟨-, hb'⟩ := hb.saveData hinv.keys hsave
    refine ⟨_, rfl, rfl, CompareMainVC.form_congr (CompareMainVC.loadedColNum_eq hb'.stored_le) ?_⟩
    -- every field of the form was written, so the redisplay reads it back
    exact fun f hf => CompareMainVC.reloaded_eq_self (hw.stored hf)

/-- Once a form is put, saving it again changes nothing. -/
theorem Inv.refines_saves {saves : List Event} (hrun : app.Run s saves t) :
    ∀ {vc : CompareMainVC} {form : Form}, s.Inv → s.editor = some vc → vc.form = form →
      s.db.Refines ((FormOp.put vc.groupId form).apply m) →
      (∀ e ∈ saves, e.succeeds ∧ ∃ now writes reads, e = .saveBtnDidTap now writes reads) →
      t.db.Refines ((FormOp.put vc.groupId form).apply m) := by
  induction hrun with
  | nil s => exact fun _ _ _ hm _ => hm
  | @cons s s' t e saves he hs _ ih =>
    rintro vc form hinv hed rfl hm hsaves
    obtain ⟨hsucc, now, writes, reads, rfl⟩ := hsaves e List.mem_cons_self
    obtain ⟨hm', vc', hed', hg, hform⟩ := hinv.refines_save hm hed hsucc he hs
    rw [FormOp.put_put, ← hg] at hm'
    rw [← hg]
    exact ih (hinv.step he hs) hed' hform hm' fun e he' => hsaves e (List.mem_cons_of_mem _ he')

end App

/-! ### Runs -/

/-- The forms after a run. -/
def formsAfter (es : List Event) : Forms :=
  app.track (fun s e => (s.formOp e).apply) App.init es ∅

theorem refines_of_run {es : List Event} {s : App} (hrun : app.Run App.init es s)
    (hok : ∀ e ∈ es, e.succeeds) : s.Inv ∧ s.db.Refines (formsAfter es) :=
  hrun.refines (R := fun s m => s.Inv ∧ s.db.Refines m)
    (fun ⟨hi, hm⟩ hsucc he hs => by
      obtain ⟨s', hs', hm', -⟩ := hi.refines_step hm he hsucc
      rw [← Option.some_inj.mp (hs'.symm.trans hs)]
      exact ⟨hi.step he hs', hm'⟩) hok ⟨App.inv_init, Realm.refines_empty⟩

/-- **The tables refine a finite map of forms.**  Along every run whose Realm
operations succeed, the tables hold the forms that the saves put and the
deletes removed; an event that can happen next does not trap, changes the forms
by its operation and no record of another group; and saving a form again and
again is saving it once. -/
theorem tables_refine_forms {es : List Event} {s : App} (hrun : app.Run App.init es s)
    (hok : ∀ e ∈ es, e.succeeds) :
    s.db.Refines (formsAfter es) ∧
    (∀ e, app.enabled s e → e.succeeds → ∃ s', app.step s e = some s' ∧
      s'.db.Refines ((s.formOp e).apply (formsAfter es)) ∧
      (∀ g, (s.formOp e).group ≠ some g →
        s'.db.itemsOf g = s.db.itemsOf g ∧ s'.db.contentsOf g = s.db.contentsOf g) ∧
      (s.formOp e = .keep → s'.db = s.db)) ∧
    ∀ vc saves t, s.editor = some vc → saves ≠ [] →
      (∀ e ∈ saves, e.succeeds ∧ ∃ now writes reads, e = .saveBtnDidTap now writes reads) →
      app.Run s saves t → t.db.Refines ((formsAfter es).insert vc.groupId vc.form) := by
  obtain ⟨hinv, hrefines⟩ := refines_of_run hrun hok
  refine ⟨hrefines, fun e he hsucc => hinv.refines_step hrefines he hsucc, ?_⟩
  intro vc saves t hed hne hsaves hsaved
  cases hsaved with
  | nil => exact absurd rfl hne
  | cons he hs hrest =>
    obtain ⟨hsucc, now, writes, reads, rfl⟩ := hsaves _ List.mem_cons_self
    obtain ⟨hm, vc', hed', hg, hform⟩ := hinv.refines_save hrefines hed hsucc he hs
    rw [← hg] at hm
    have hagain := App.Inv.refines_saves hrest (hinv.step he hs) hed' hform hm fun e he' =>
      hsaves e (List.mem_cons_of_mem _ he')
    rwa [hg] at hagain

/-- The id of the deleted comparison is stored again, under another title than the
one now typed. -/
def storedAgain : List Event :=
  reusedGroupId ++ [.addNewHikakuBtnDidTap true .ok, .edit .groupNameTF "c",
    .saveBtnDidTap "" .ok .ok, .edit .groupNameTF "d"]

theorem storedAgain_isSome : (app.exec App.init storedAgain).isSome = true := by decide +kernel

theorem storedAgain_savedTwice_isSome : (app.exec App.init (storedAgain ++
    [.saveBtnDidTap "" .ok .ok, .saveBtnDidTap "" .ok .ok])).isSome = true := by
  decide +kernel

theorem tables_refine_forms_storedAgain : ∃ s vc t, app.Run App.init storedAgain s ∧
    s.db.items.map (·.groupId) = [1, 2] ∧ s.editor = some vc ∧ vc.groupId = 2 ∧
    app.Run s [.saveBtnDidTap "" .ok .ok, .saveBtnDidTap "" .ok .ok] t ∧
    s.db.Refines (formsAfter storedAgain) ∧
    (∀ e, app.enabled s e → e.succeeds → ∃ s', app.step s e = some s' ∧
      s'.db.Refines ((s.formOp e).apply (formsAfter storedAgain)) ∧
      (∀ g, (s.formOp e).group ≠ some g →
        s'.db.itemsOf g = s.db.itemsOf g ∧ s'.db.contentsOf g = s.db.contentsOf g) ∧
      (s.formOp e = .keep → s'.db = s.db)) ∧
    t.db.Refines ((formsAfter storedAgain).insert vc.groupId vc.form) := by
  have hok : ∀ e ∈ storedAgain, e.succeeds := by
    simp [storedAgain, reusedGroupId, twoGroups, Event.succeeds, Reads.succeed, Reads.ok,
      Writes.ok, Delete.ok]
  obtain ⟨s, hrun, hsaved⟩ :=
    EventSystem.run_append_iff.mp (EventSystem.run_get_exec storedAgain_savedTwice_isSome)
  obtain rfl := hrun.det (EventSystem.run_get_exec storedAgain_isSome)
  have hed : ((app.exec App.init storedAgain).get storedAgain_isSome).editor.map (·.groupId) =
      some 2 := by
    decide +kernel
  obtain ⟨vc, hvc, hg⟩ := Option.map_eq_some_iff.mp hed
  have hsaves : ∀ e ∈ [Event.saveBtnDidTap "" .ok .ok, .saveBtnDidTap "" .ok .ok],
      e.succeeds ∧ ∃ now writes reads, e = .saveBtnDidTap now writes reads := by
    intro e he
    obtain rfl : e = .saveBtnDidTap "" .ok .ok := by simpa using he
    exact ⟨⟨rfl, fun _ => rfl, rfl, rfl⟩, "", .ok, .ok, rfl⟩
  obtain ⟨hrefines, hsteps, hagain⟩ := tables_refine_forms hrun hok
  exact ⟨_, vc, _, hrun, by decide +kernel, hvc, hg, hsaved, hrefines, hsteps,
    hagain vc _ _ hvc (List.cons_ne_nil _ _) hsaves hsaved⟩

end HikakuKun
