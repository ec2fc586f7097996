/-
What can be written.

Nothing that may have happened to the store or to the screen keeps the user from
writing a comparison down: from every state the app reaches there is a run to an
editor on a new group with any texts in its seven rows and its columns, from two
to four, or five on a wide screen.  So the tables can be brought to any list of
such comparisons.

* `App.Inv.exists_run_filled` — an editor with the texts of a given form;
* `every_list_attainable` — from every reachable state, any list of comparisons;
* `storable_forms` — which forms are stored at all, with and without failures.
-/
import HikakuKun.Limits
import HikakuKun.Listing
import HikakuKun.Recovery

namespace HikakuKun

/-! ### The texts of a form -/

/-- The text of a form in a field. -/
def Form.text (form : Form) : Field → String
  | .groupNameTF => form.title
  | .itemTF k => form.heading k
  | .nameTF c => (form.columns[c.val]?.map (·.name)).getD ""
  | .contentTF c k => (form.columns[c.val]?.map (·.cell k)).getD ""
  | .memoTV c => (form.columns[c.val]?.map (·.memo)).getD ""

namespace CompareMainVC

variable {vc : CompareMainVC} {form : Form} {s : App}

/-- An editor with these texts in its columns holds the form. -/
theorem form_eq_of_text (hcol : vc.colNum = form.columns.length) (hfive : vc.colNum ≤ 5)
    (h : ∀ f, f.Within vc.colNum → vc.texts f = form.text f) : vc.form = form := by
  have hcolumns : ((List.finRange 5).take vc.colNum).map vc.column = form.columns := by
    refine List.ext_getElem ?_ fun i hi hi' => ?_
    · rw [List.length_map, List.length_take, List.length_finRange, ← hcol]
      exact min_eq_left hfive
    · have hlt : i < vc.colNum := hcol ▸ hi'
      have hget : form.columns[i]? = some form.columns[i] := List.getElem?_eq_getElem hi'
      have hcolumn : vc.column ⟨i, by omega⟩ = form.columns[i] := by
        rw [column, h (.nameTF ⟨i, by omega⟩) hlt, h (.memoTV ⟨i, by omega⟩) hlt,
          funext fun k => h (.contentTF ⟨i, by omega⟩ k) hlt]
        simp only [Form.text, hget, Option.map_some, Option.getD_some]
      simp only [List.getElem_map, List.getElem_take, List.getElem_finRange]
      exact hcolumn
  show Form.mk _ _ _ = form
  rw [hcolumns, h .groupNameTF trivial, funext fun k => h (.itemTF k) trivial]
  rfl

/-- All the fields. -/
def fields : List Field :=
  .groupNameTF :: (nameFields ++ memoFields ++ (List.finRange 7).flatMap rowFields)

theorem mem_fields (f : Field) : f ∈ fields := by
  rw [fields, List.mem_cons, List.mem_append, List.mem_append, mem_nameFields, mem_memoFields,
    List.mem_flatMap]
  cases f with
  | groupNameTF => exact .inl rfl
  | nameTF c => exact .inr (.inl (.inl ⟨c, rfl⟩))
  | memoTV c => exact .inr (.inl (.inr ⟨c, rfl⟩))
  | itemTF k => exact .inr (.inr ⟨k, List.mem_finRange k, mem_rowFields.mpr (.inl rfl)⟩)
  | contentTF c k => exact .inr (.inr ⟨k, List.mem_finRange k, mem_rowFields.mpr (.inr ⟨c, rfl⟩)⟩)

/-- The editor after some fields were given their texts of `target`. -/
def typed (vc : CompareMainVC) (target : Texts) (fs : List Field) : CompareMainVC :=
  { vc with texts := fun f => if f ∈ fs then target f else vc.texts f }

theorem typed_edit (vc : CompareMainVC) (target : Texts) (f : Field) (fs : List Field) :
    (vc.edit f (target f)).typed target fs = vc.typed target (f :: fs) := by
  have htexts : (fun f' => if f' ∈ fs then target f' else setText vc.texts f (some (target f)) f') =
      fun f' => if f' ∈ f :: fs then target f' else vc.texts f' := by
    funext f'
    by_cases hmem : f' ∈ fs
    · rw [if_pos hmem, if_pos (List.mem_cons_of_mem f hmem)]
    · rw [if_neg hmem]
      by_cases hf : f' = f
      · rw [hf, if_pos List.mem_cons_self]
        exact Function.update_self ..
      · rw [if_neg fun h => (List.mem_cons.mp h).elim hf hmem]
        exact Function.update_of_ne hf _ _
  exact congrArg (fun texts => { vc with texts := texts }) htexts

/-- Typing the texts, one field after the other. -/
theorem run_typed (target : Texts) {fs : List Field} (hvisible : ∀ f ∈ fs, vc.visible f) :
    app.Run (s.showing vc) (fs.map fun f => .edit f (target f))
      (s.showing (vc.typed target fs)) := by
  induction fs generalizing vc with
  | nil => exact .nil _
  | cons f fs ih =>
    have henabled : app.enabled (s.showing vc) (.edit f (target f)) :=
      ⟨vc, rfl, hvisible f List.mem_cons_self⟩
    have hstep : app.step (s.showing vc) (.edit f (target f)) =
        some (s.showing (vc.edit f (target f))) :=
      @App.edit_eq (s.showing vc) vc rfl f (target f)
    -- an edit changes no number
    have hrest : ∀ f' ∈ fs, (vc.edit f (target f)).visible f' := fun f' hf' =>
      hvisible f' (List.mem_cons_of_mem f hf')
    have hrun := ih hrest
    rw [typed_edit] at hrun
    exact .cons henabled hstep hrun

end CompareMainVC

/-! ### An editor of the right size -/

/-- The most columns that the + column button gives on a screen of this width. -/
def maxColumns (width : ℚ) : ℕ := if 800 ≤ width then 5 else 4

theorem maxColumns_le_five (width : ℚ) : maxColumns width ≤ 5 := by
  unfold maxColumns
  split <;> omega

/-- Below it the button is added. -/
theorem addsNewNameBtn_of_lt {width : ℚ} {colNum : ℕ} (h : colNum < maxColumns width) :
    CompareMainVC.addsNewNameBtn width colNum = true := by
  refine decide_eq_true ?_
  by_cases hwide : 800 ≤ width
  · rw [maxColumns, if_pos hwide] at h
    exact .inl ⟨hwide, by omega⟩
  · rw [maxColumns, if_neg hwide] at h
    exact .inr ⟨not_le.mp hwide, by omega⟩

namespace App

/-- An editor on group `g` over the store `db`, with at most `n` columns and
with the buttons for the columns and rows it still has to get. -/
structure Growing (db : Realm) (g : ℤ) (width : ℚ) (n : ℕ) (s : App) : Prop where
  inv : s.Inv
  store : s.db = db
  screen : s.width = width
  editor : ∃ vc, s.editor = some vc ∧ vc.groupId = g ∧ vc.colNum ≤ n ∧
    (vc.colNum < n → vc.addNewNameBtn = true) ∧ (vc.rowNum ≤ 6 → vc.addNewItemBtn = true)

/-- The columns and rows that are missing. -/
def missing (n : ℕ) (s : App) : ℕ :=
  (s.editor.map fun vc => (n - vc.colNum) + (7 - vc.rowNum)).getD 0

variable {s t : App} {db : Realm} {g : ℤ} {width : ℚ} {n : ℕ} {vc : CompareMainVC} {form : Form}

/-- A + tap on an editor whose group is not stored, with the numbers it is to
have. -/
theorem growing_tapped (hinv : (s.showing (vc.tapped .ok s.width s.db)).Inv)
    (hn : n ≤ maxColumns s.width) (hnew : s.db.contentsOf vc.groupId = [])
    (hcol : vc.colNum ≤ n) :
    (s.showing (vc.tapped .ok s.width s.db)).Growing s.db vc.groupId s.width n ∧
      (s.showing (vc.tapped .ok s.width s.db)).missing n =
        (n - vc.colNum) + (7 - vc.rowNum) := by
  have hload : vc.loadedColNum .ok s.db = vc.colNum := by
    refine CompareMainVC.loadedColNum_eq ?_
    rw [hnew]
    exact Nat.zero_le _
  have hloaded : (vc.tapped .ok s.width s.db).colNum = vc.colNum := hload
  refine ⟨⟨hinv, rfl, rfl, _, rfl, rfl, hloaded.le.trans hcol, fun hlt => ?_, ?_⟩, ?_⟩
  · exact addsNewNameBtn_of_lt (hlt.trans_le hn)
  · exact decide_eq_true
  · show (n - (vc.tapped .ok s.width s.db).colNum) + (7 - vc.rowNum) = _
    rw [hloaded]

/-- While something is missing there is a + button for it. -/
theorem Growing.tap (h : s.Growing db g width n) (hnew : db.contentsOf g = [])
    (hn : n ≤ maxColumns width) (hmissing : s.missing n ≠ 0) :
    ∃ es t, app.Run s es t ∧ (∀ e ∈ es, e.SucceedsOn width) ∧ t.Growing db g width n ∧
      t.missing n < s.missing n := by
  obtain ⟨vc, hvc, hg, hcol, hname, hitem⟩ := h.editor
  have hdb := h.store
  have hwidth := h.screen
  subst hg hdb hwidth
  have hs : s.missing n = (n - vc.colNum) + (7 - vc.rowNum) := by
    rw [missing, hvc]
    rfl
  by_cases hlt : vc.colNum < n
  -- a column
  · have hbtn := hname hlt
    have henabled : app.enabled s (.addNewNameBtnDidTap .ok) := ⟨vc, hvc, hbtn⟩
    have hstep := addNewNameBtnDidTap_eq h.inv hvc hbtn .ok
    obtain ⟨hgrowing, hless⟩ := @growing_tapped s n { vc with colNum := vc.colNum + 1 }
      (h.inv.step henabled hstep) hn hnew hlt
    refine ⟨_, _, EventSystem.run_single_iff.mpr ⟨henabled, hstep⟩,
      List.forall_mem_singleton.mpr ⟨rfl, rfl⟩, hgrowing, ?_⟩
    rw [hless, hs]
    show (n - (vc.colNum + 1)) + (7 - vc.rowNum) < _
    omega
  -- a row
  · have hbtn := hitem (by omega)
    have henabled : app.enabled s (.addNewItemBtnDidTap .ok) := ⟨vc, hvc, hbtn⟩
    have hstep := addNewItemBtnDidTap_eq h.inv hvc hbtn .ok
    obtain ⟨hgrowing, hless⟩ := @growing_tapped s n { vc with rowNum := vc.rowNum + 1 }
      (h.inv.step henabled hstep) hn hnew hcol
    refine ⟨_, _, EventSystem.run_single_iff.mpr ⟨henabled, hstep⟩,
      List.forall_mem_singleton.mpr ⟨rfl, rfl⟩, hgrowing, ?_⟩
    rw [hless, hs]
    show (n - vc.colNum) + (7 - (vc.rowNum + 1)) < _
    omega

/-- A new comparison, after a launch. -/
theorem Inv.exists_run_growing (hinv : s.Inv) (htwo : 2 ≤ n) (hn : n ≤ maxColumns width) :
    ∃ es t g, app.Run s es t ∧ (∀ e ∈ es, e.SucceedsOn width) ∧ t.Growing s.db g width n ∧
      s.db.itemsOf g = [] := by
  obtain ⟨max, hmax⟩ := CompareItemRealm.exists_getMaxGroupId s.db
  have hlaunched : app.Run s [.launch true, .layoutSubviews width]
      { s.launched with width := width } := run_launch.snoc trivial rfl
  have hinv' := hinv.of_run hlaunched
  have hstep := @addNewHikakuBtnDidTap_eq _ hinv' true .ok
  simp only [launched, hmax] at hstep
  rw [if_pos ⟨rfl, rfl⟩] at hstep
  have henabled : app.enabled { s.launched with width := width }
      (.addNewHikakuBtnDidTap true .ok) := rfl
  have hfresh : s.db.itemsOf (max + 1) = [] := by
    refine List.eq_nil_iff_forall_not_mem.mpr fun item hitem => ?_
    obtain ⟨hmem, hid⟩ := Realm.mem_itemsOf.mp hitem
    have := CompareItemRealm.le_getMaxGroupId hmax hmem
    omega
  have hload : (CompareMainVC.fresh (max + 1) 1).loadedColNum .ok s.db = 2 := by
    refine @CompareMainVC.loadedColNum_eq _ (CompareMainVC.fresh (max + 1) 1) _ ?_
    show (s.db.contentsOf (max + 1)).length ≤ 2
    rw [(hinv.keys _).contentsOf_eq_nil hfresh]
    exact Nat.zero_le _
  refine ⟨_, _, max + 1, hlaunched.snoc henabled hstep, ?_, ⟨hinv'.step henabled hstep, rfl, rfl,
    _, rfl, rfl, hload.le.trans htwo, fun hlt => ?_, decide_eq_true⟩, hfresh⟩
  · exact List.forall_mem_cons.mpr ⟨rfl, List.forall_mem_cons.mpr ⟨rfl,
      List.forall_mem_singleton.mpr ⟨rfl, rfl, rfl⟩⟩⟩
  · exact addsNewNameBtn_of_lt (lt_of_lt_of_le hlt hn)

/-! ### Filling it in and saving it -/

/-- From every state of the invariant there is a run to an editor on a new group
that holds the form. -/
theorem Inv.exists_run_filled (hinv : s.Inv) (htwo : 2 ≤ form.columns.length)
    (hmax : form.columns.length ≤ maxColumns width) :
    ∃ es t vc, app.Run s es t ∧ (∀ e ∈ es, e.SucceedsOn width) ∧ t.db = s.db ∧
      t.editor = some vc ∧ vc.form = form ∧ vc.colNum = form.columns.length ∧
      s.db.itemsOf vc.groupId = [] := by
  obtain ⟨es, t, g, hes, hsucc, hgrowing, hfresh⟩ := hinv.exists_run_growing htwo hmax
  have hnew := (hinv.keys g).contentsOf_eq_nil hfresh
  -- the + taps
  obtain ⟨fs, u, hfs, hsucc', hu, hzero⟩ := EventSystem.exists_run_of_decreasing
    (M := app) (I := Growing s.db g width form.columns.length) (P := Event.SucceedsOn width)
    (missing form.columns.length) (fun _ h hne => h.tap hnew hmax hne) t hgrowing
  obtain ⟨vc, hvc, rfl, hcol, -⟩ := hu.editor
  have hmissing : (form.columns.length - vc.colNum) + (7 - vc.rowNum) = 0 := by
    rw [missing, hvc] at hzero
    exact hzero
  have hcolNum : vc.colNum = form.columns.length := by omega
  have hshowing : u.showing vc = u := by
    rw [App.showing, ← hvc]
  -- the texts, of the fields on screen
  have htyped := @CompareMainVC.run_typed vc u form.text
    (CompareMainVC.fields.filter fun f => decide (vc.visible f)) fun f hf =>
      of_decide_eq_true (List.mem_filter.mp hf).2
  rw [hshowing] at htyped
  refine ⟨_, _, _, (hes.append hfs).append htyped, ?_, hu.store, rfl, ?_, hcolNum, hfresh⟩
  · refine List.forall_mem_append.mpr ⟨List.forall_mem_append.mpr ⟨hsucc, hsucc'⟩, ?_⟩
    exact List.forall_mem_map.mpr fun _ _ => trivial
  · refine CompareMainVC.form_eq_of_text hcolNum
      (hcolNum.le.trans (hmax.trans (maxColumns_le_five width))) fun f hf => ?_
    have hvisible : vc.visible f := by
      cases f with
      | groupNameTF => trivial
      | nameTF c => exact hf
      | itemTF k => exact (show k.val < vc.rowNum by omega)
      | contentTF c k => exact ⟨hf, by omega⟩
      | memoTV c => exact hf
    exact if_pos (List.mem_filter.mpr ⟨CompareMainVC.mem_fields f, decide_eq_true hvisible⟩)

/-- And one more save stores the form under the new group, up to the columns that
the save commits. -/
theorem Inv.exists_run_put (hinv : s.Inv) (htwo : 2 ≤ form.columns.length)
    (hmax : form.columns.length ≤ maxColumns width) {writes : Writes}
    (hcommit : writes.CommitsItem) :
    ∃ es t u g, app.Run s es t ∧ (∀ e ∈ es, e.SucceedsOn width) ∧
      app.Run t [.saveBtnDidTap "" writes .ok] u ∧
      u.db.formAt g = some (form.takeColumns (writes.committedColumns form.columns.length)) ∧
      (∀ g' ≠ g, u.db.formAt g' = s.db.formAt g') ∧ g ∉ s.ids ∧ u.ids = s.ids ++ [g] := by
  obtain ⟨es, t, vc, hes, hsucc, hdb, hvc, rfl, hcol, hfresh⟩ :=
    hinv.exists_run_filled htwo hmax
  have hinv' := hinv.of_run hes
  have hb := hinv'.editor vc hvc
  have hnot : vc.groupId ∉ s.ids := fun hmem => Realm.itemsOf_ne_nil_iff.mpr hmem hfresh
  have hids : t.ids = s.ids := by rw [ids, hdb, ids]
  rw [← hdb] at hfresh
  obtain ⟨outcome, hsave⟩ := hinv'.exists_saveData hvc (fun h => absurd hfresh h) "" writes
  have hrun := hinv'.run_save hvc hsave .ok
  obtain ⟨he, hs⟩ := EventSystem.run_single_iff.mp hrun
  rcases CompareMainVC.saveData_committed hb hinv'.keys hsave with ⟨hfail, -⟩ |
    ⟨-, j, hj, hlen, hle, hw⟩
  · exact absurd hcommit hfail
  · rw [if_pos hfresh, hcol] at hj
    refine ⟨es, t, _, vc.groupId, hes, hsucc, hrun, ?_, ?_, hnot, ?_⟩
    · rw [← hj]
      exact hw.formAt hlen hle hb.colNum_le
    · intro g' hne
      rw [← hdb]
      exact Realm.formAt_congr (hw.same.items g' hne) (hw.same.contents g' hne)
    · have hwrites : t.writesGroup (.saveBtnDidTap "" writes .ok) = some vc.groupId := by
        rw [writesGroup, if_pos hcommit, hvc]
        rfl
      rw [hinv'.ids_step he hs, orderOp, hwrites, hids]
      exact if_neg hnot

/-- The forms of the tables, in the order of the item table. -/
def forms (s : App) : List (Option Form) := s.ids.map s.db.formAt

/-- One more comparison. -/
theorem Inv.exists_run_add (hinv : s.Inv) (htwo : 2 ≤ form.columns.length)
    (hmax : form.columns.length ≤ maxColumns width) :
    ∃ es t, app.Run s es t ∧ (∀ e ∈ es, e.SucceedsOn width) ∧
      t.forms = s.forms ++ [some form] := by
  obtain ⟨es, t, u, g, hes, hsucc, hsave, hform, helse, hnot, hids⟩ :=
    @Inv.exists_run_put s width form hinv htwo hmax .ok ⟨rfl, rfl⟩
  have hall : Writes.ok.committedColumns form.columns.length = form.columns.length :=
    Writes.committedColumns_eq_self fun _ _ => rfl
  have htake : form.takeColumns form.columns.length = form := by
    rw [Form.takeColumns, List.take_length]
  rw [hall, htake] at hform
  refine ⟨_, u, hes.append hsave, ?_, ?_⟩
  · exact List.forall_mem_append.mpr
      ⟨hsucc, List.forall_mem_singleton.mpr ⟨rfl, fun _ => rfl, rfl, rfl⟩⟩
  · have hold : s.ids.map u.db.formAt = s.forms :=
      List.map_congr_left fun g' hg' => helse g' fun heq => hnot (heq ▸ hg')
    rw [forms, hids, List.map_append, hold, List.map_singleton, hform]

/-- As many more as one likes. -/
theorem Inv.exists_run_list (hinv : s.Inv) {new : List Form}
    (hsize : ∀ form ∈ new, 2 ≤ form.columns.length ∧ form.columns.length ≤ maxColumns width) :
    ∃ es t, app.Run s es t ∧ (∀ e ∈ es, e.SucceedsOn width) ∧
      t.forms = s.forms ++ new.map some := by
  induction new generalizing s with
  | nil => exact ⟨[], s, .nil s, fun _ he => absurd he List.not_mem_nil, (List.append_nil _).symm⟩
  | cons form new ih =>
    obtain ⟨htwo, hmax⟩ := hsize form List.mem_cons_self
    obtain ⟨es, t, hes, hsucc, ht⟩ := hinv.exists_run_add htwo hmax
    obtain ⟨fs, u, hfs, hsucc', hu⟩ :=
      ih (hinv.of_run hes) fun form' hform' =>
        hsize form' (List.mem_cons_of_mem form hform')
    refine ⟨_, u, hes.append hfs, List.forall_mem_append.mpr ⟨hsucc, hsucc'⟩, ?_⟩
    rw [hu, ht, List.append_assoc]
    rfl

/-- A rebuilt list shows the forms of the tables. -/
theorem Inv.viewDidLoad_eq (hinv : s.Inv) {shown : List Form} (h : s.forms = shown.map some)
    (list : ViewController) :
    list.viewDidLoad true s.db = ⟨shown.map Form.rowText, s.ids⟩ := by
  have htexts : (s.db.items.map (ViewController.displayText s.db)).map some =
      (shown.map Form.rowText).map some := by
    have hform : (s.db.items.map (ViewController.displayText s.db)).map some =
        s.forms.map (Option.map Form.rowText) := by
      rw [forms, ids, List.map_map, List.map_map, List.map_map]
      refine List.map_congr_left fun item hitem => ?_
      show some (ViewController.displayText s.db item) = (s.db.formAt item.groupId).map _
      rw [hinv.keys.formAt_of_mem hitem, displayText_eq_rowText]
      rfl
    rw [hform, h, List.map_map, List.map_map]
    rfl
  rw [ViewController.viewDidLoad_true]
  exact congrArg (ViewController.mk · _)
    (List.map_injective_iff.mpr (Option.some_injective String) htexts)

end App

/-- **Every list can be written.**  On a screen of any width, from every state the
app reaches, whatever failed on the way, some run whose Realm operations succeed
brings the tables to any given list of comparisons with two to four columns each,
or five on a wide screen, and these are the rows of the list in front. -/
theorem every_list_attainable {s : App} (hs : Reachable s) {width : ℚ} {shown : List Form}
    (hsize : ∀ form ∈ shown, 2 ≤ form.columns.length ∧ form.columns.length ≤ maxColumns width) :
    ∃ es t, app.Run s es t ∧ (∀ e ∈ es, e.SucceedsOn width) ∧
      t.ids.map t.db.formAt = shown.map some ∧
      t.editor = none ∧ t.list = ⟨shown.map Form.rowText, t.ids⟩ := by
  -- back to empty tables first
  obtain ⟨es, t, hes, hsucc, hempty⟩ := hs.inv.exists_run_empty width
  have hinv := hs.inv.of_run hes
  have hnil : t.forms = [] := by
    rw [App.forms, App.ids, hempty]
    rfl
  obtain ⟨fs, u, hfs, hsucc', hu⟩ := hinv.exists_run_list hsize
  have hinv' := hinv.of_run hfs
  rw [hnil, List.nil_append] at hu
  refine ⟨_, u.launched, (hes.append hfs).append App.run_launch, ?_, hu, rfl,
    hinv'.viewDidLoad_eq hu _⟩
  exact List.forall_mem_append.mpr
    ⟨List.forall_mem_append.mpr ⟨hsucc, hsucc'⟩, List.forall_mem_singleton.mpr rfl⟩

/-- From the store a cut short save has left, on a wide screen, to one small and
one full comparison. -/
theorem every_list_attainable_partialSave : ∃ s, app.Run App.init partialSave s ∧
    ∃ es t, app.Run s es t ∧ (∀ e ∈ es, e.SucceedsOn 800) ∧ t.editor = none ∧
      t.list = ⟨["a  :  b, c", "d  :  , , , , "], t.ids⟩ := by
  have hrun := EventSystem.run_get_exec partialSave_isSome
  have hfive : maxColumns 800 = 5 := by decide
  have hsize : ∀ form ∈ ([⟨"a", fun _ => "", [⟨"b", fun _ => "", ""⟩, ⟨"c", fun _ => "", ""⟩]⟩,
      ⟨"d", fun _ => "", List.replicate 5 ⟨"", fun _ => "", ""⟩⟩] : List Form),
      2 ≤ form.columns.length ∧ form.columns.length ≤ maxColumns 800 := by
    simp [hfive]
  obtain ⟨es, t, ht, hsucc, -, hfront, hlist⟩ := every_list_attainable ⟨_, hrun⟩ hsize
  refine ⟨_, hrun, es, t, ht, hsucc, hfront, hlist.trans ?_⟩
  rw [ViewController.mk.injEq]
  exact ⟨by decide, rfl⟩

/-! ### Which forms are stored -/

/-- The columns of a stored form are the records. -/
theorem Realm.length_columns {db : Realm} {g : ℤ} {form : Form} (h : db.formAt g = some form) :
    db.itemsOf g ≠ [] ∧ form.columns.length = (db.contentsOf g).length := by
  obtain ⟨item, hitem, rfl⟩ := Option.map_eq_some_iff.mp h
  refine ⟨fun hnil => ?_, List.length_map _⟩
  rw [hnil] at hitem
  cases hitem

/-- The form with blank columns up to the second. -/
def Form.padded (form : Form) : Form :=
  { form with
    columns := form.columns ++ List.replicate (2 - form.columns.length) ⟨"", fun _ => "", ""⟩ }

theorem Form.length_padded (form : Form) :
    form.padded.columns.length = max form.columns.length 2 := by
  rw [padded, List.length_append, List.length_replicate]
  omega

/-- A save that is cut short after as many columns stores the form itself. -/
theorem Form.takeColumns_padded (form : Form) :
    form.padded.takeColumns ((Writes.failingAt (form.columns.length + 1)).committedColumns
      form.padded.columns.length) = form := by
  have hbefore : ∀ i < form.columns.length,
      (Writes.failingAt (form.columns.length + 1)).write (i + 1) = true := by
    intro i hi
    refine decide_eq_true ?_
    omega
  have hcommitted : (Writes.failingAt (form.columns.length + 1)).committedColumns
      form.padded.columns.length = form.columns.length := by
    rw [length_padded]
    by_cases htwo : 2 ≤ form.columns.length
    · rw [max_eq_left htwo]
      exact Writes.committedColumns_eq_self hbefore
    · rw [max_eq_right (by omega)]
      exact Writes.committedColumns_eq (by omega) hbefore (decide_eq_false (not_not.mpr rfl))
  rw [hcommitted, takeColumns, padded, List.take_left]

/-- A form that fits the screen can be stored. -/
theorem exists_run_formAt {width : ℚ} {form : Form} (htwo : 2 ≤ form.columns.length)
    (hmax : form.columns.length ≤ maxColumns width) :
    ∃ es s g, app.Run App.init es s ∧ (∀ e ∈ es, e.SucceedsOn width) ∧
      s.db.formAt g = some form := by
  obtain ⟨es, s, hrun, hsucc, hforms⟩ := App.inv_init.exists_run_add htwo hmax
  have hmem : some form ∈ s.forms := by
    rw [hforms]
    exact List.mem_append_right _ (List.mem_singleton_self _)
  obtain ⟨g, -, hg⟩ := List.mem_map.mp hmem
  exact ⟨es, s, g, hrun, hsucc, hg⟩

/-- While Realm operations succeed a stored form has two columns. -/
theorem two_le_of_formAt {es : List Event} {s : App} (hrun : app.Run App.init es s)
    (hsucc : ∀ e ∈ es, e.succeeds) {g : ℤ} {form : Form} (hform : s.db.formAt g = some form) :
    2 ≤ form.columns.length := by
  obtain ⟨-, hrefines⟩ := refines_of_run hrun hsucc
  obtain ⟨hitems, hlen⟩ := Realm.length_columns hform
  rw [hlen]
  exact (hrefines g).two_le hitems

theorem le_five_of_formAt {s : App} (hs : Reachable s) {g : ℤ} {form : Form}
    (hform : s.db.formAt g = some form) : form.columns.length ≤ 5 := by
  rw [(Realm.length_columns hform).2]
  exact (hs.inv.keys g).le_five

/-- **Which forms are stored.**  While Realm operations succeed, exactly the
comparisons with two to five columns can get into the store, on screens that are
always narrow those with two to four; when operations may fail, exactly those with
five at most. -/
theorem storable_forms :
    {form : Form | ∃ es s g, app.Run App.init es s ∧ (∀ e ∈ es, e.succeeds) ∧
      s.db.formAt g = some form} =
        {form | 2 ≤ form.columns.length ∧ form.columns.length ≤ 5} ∧
    {form : Form | ∃ es s g, app.Run App.init es s ∧ (∀ e ∈ es, e.succeeds) ∧
      AlwaysNarrow es ∧ s.db.formAt g = some form} =
        {form | 2 ≤ form.columns.length ∧ form.columns.length ≤ 4} ∧
    {form : Form | ∃ s g, Reachable s ∧ s.db.formAt g = some form} =
      {form | form.columns.length ≤ 5} := by
  have hwide : maxColumns 800 = 5 := by decide
  refine ⟨?_, ?_, ?_⟩
  · ext form
    constructor
    · rintro ⟨es, s, g, hrun, hsucc, hform⟩
      exact ⟨two_le_of_formAt hrun hsucc hform, le_five_of_formAt ⟨es, hrun⟩ hform⟩
    · rintro ⟨htwo, hfive⟩
      obtain ⟨es, s, g, hrun, hsucc, hform⟩ := exists_run_formAt htwo (hwide ▸ hfive)
      exact ⟨es, s, g, hrun, fun e he => (hsucc e he).succeeds, hform⟩
  · ext form
    constructor
    · rintro ⟨es, s, g, hrun, hsucc, hnarrow, hform⟩
      refine ⟨two_le_of_formAt hrun hsucc hform, ?_⟩
      rw [(Realm.length_columns hform).2]
      exact (App.narrow_of_run hrun hnarrow).stored g
    · rintro ⟨htwo, hfour⟩
      obtain ⟨es, s, g, hrun, hsucc, hform⟩ := @exists_run_formAt 0 form htwo hfour
      refine ⟨es, s, g, hrun, fun e he => (hsucc e he).succeeds, fun width hmem => ?_, hform⟩
      have hzero : width = 0 := hsucc _ hmem
      rw [hzero]
      decide
  · ext form
    constructor
    · rintro ⟨s, g, hs, hform⟩
      exact le_five_of_formAt hs hform
    · intro hfive
      have hfive : form.columns.length ≤ 5 := hfive
      have htwo : 2 ≤ form.padded.columns.length := by
        rw [form.length_padded]
        exact le_max_right _ _
      have hpadded : form.padded.columns.length ≤ maxColumns 800 := by
        rw [form.length_padded, hwide]
        omega
      have hcommit : (Writes.failingAt (form.columns.length + 1)).CommitsItem :=
        ⟨rfl, decide_eq_true (Nat.succ_ne_zero form.columns.length).symm⟩
      obtain ⟨es, t, u, g, hes, -, hsave, hform, -⟩ :=
        App.inv_init.exists_run_put htwo hpadded hcommit
      rw [form.takeColumns_padded] at hform
      exact ⟨u, g, ⟨_, hes.append hsave⟩, hform⟩

end HikakuKun
