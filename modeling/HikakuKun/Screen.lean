/-
What is out of view.

An editor has fields for five columns and seven rows, shows some of them, and
saves all seven rows of the columns it shows.  The fields out of view are blank
at all times, so a save stores blanks there; and nothing else is hidden either:
two states that look alike are the same state.

* `reloaded_of_hidden` — a load does not reach a field out of view;
* `hidden_fields_blank` — the invariant, and what a save stores of it;
* `eq_of_sameScreen` — equality of states, field by field on screen.
-/
import HikakuKun.Drafts

namespace HikakuKun

namespace CompareMainVC

/-- The fields out of view are blank, and the + row button is attached as the
number of rows says. -/
structure Plain (vc : CompareMainVC) : Prop where
  hidden : ∀ f, ¬ vc.visible f → vc.texts f = ""
  itemBtn : vc.addNewItemBtn = decide (vc.rowNum ≤ 6)

variable {vc : CompareMainVC} {db : Realm} {reads : Reads} {width : ℚ} {t : Texts} {f : Field}

theorem le_loadedColNum : vc.colNum ≤ vc.loadedColNum reads db := by
  unfold loadedColNum
  split
  · exact Nat.le_max_left _ _
  · exact le_rfl

/-- `viewDidLoad` leaves the fields out of view alone. -/
theorem reloaded_of_hidden (hk : db.Keys) (htwo : 2 ≤ vc.colNum) (hone : 1 ≤ vc.rowNum)
    (hstored : (db.contentsOf vc.groupId).length ≤ vc.colNum) (hf : ¬ vc.visible f) :
    reloaded db vc.groupId vc.colNum vc.rowNum t f = t f := by
  cases f with
  | groupNameTF => exact absurd trivial hf
  | nameTF c =>
    have hc : ¬ c.val < vc.colNum := hf
    rw [reloaded, if_neg (by omega), if_neg hc]
  | memoTV c => exact if_neg hf
  | itemTF k =>
    have hlt : ¬ k.val < vc.rowNum := hf
    have hk0 : k ≠ 0 := by
      rintro rfl
      exact hlt hone
    rw [reloaded, if_neg hk0, if_neg hlt]
  | contentTF c k =>
    by_cases hc : c.val < vc.colNum
    · have hlt : ¬ k.val < vc.rowNum := fun h => hf ⟨hc, h⟩
      have hk0 : k ≠ 0 := by
        rintro rfl
        exact hlt hone
      rw [reloaded, if_neg hk0, if_neg hlt]
    -- a column that is not shown is not stored
    · have hnone : db.stored vc.groupId (.contentTF c k) = none := by
        rw [Option.eq_none_iff_forall_ne_some]
        intro v hv
        exact hc (Nat.lt_of_lt_of_le (Realm.within_of_stored (hk vc.groupId).numbered hv) hstored)
      by_cases hk0 : k = 0
      · rw [reloaded, if_pos hk0, if_neg (by omega), if_neg hc]
      · rw [reloaded, if_neg hk0, hnone]
        exact ite_self _

/-- A redisplay keeps the fields out of view blank. -/
theorem redisplayed_plain (hb : (vc.redisplayed reads width db).Bounded db) (hk : db.Keys)
    (hblank : ∀ f, ¬ (vc.redisplayed reads width db).visible f → vc.texts f = "") :
    (vc.redisplayed reads width db).Plain := by
  refine ⟨fun f hf => ?_, rfl⟩
  have hkept := reloaded_of_hidden (t := vc.texts) hk hb.two_le_colNum hb.one_le_rowNum
    hb.stored_le hf
  exact hkept.trans (hblank f hf)

theorem visible_mono {vc vc' : CompareMainVC} (hcol : vc.colNum ≤ vc'.colNum)
    (hrow : vc.rowNum ≤ vc'.rowNum) (hf : vc.visible f) : vc'.visible f := by
  cases f with
  | groupNameTF => trivial
  | nameTF c => exact Nat.lt_of_lt_of_le hf hcol
  | memoTV c => exact Nat.lt_of_lt_of_le hf hcol
  | itemTF k => exact Nat.lt_of_lt_of_le hf hrow
  | contentTF c k => exact ⟨Nat.lt_of_lt_of_le hf.1 hcol, Nat.lt_of_lt_of_le hf.2 hrow⟩

/-- A tap keeps them blank. -/
theorem tapped_plain (hb : (vc.tapped reads width db).Bounded db) (hk : db.Keys)
    (hblank : ∀ f, ¬ (vc.tapped reads width db).visible f → vc.texts f = "") :
    (vc.tapped reads width db).Plain := by
  refine ⟨fun f hf => ?_, rfl⟩
  have htext : (vc.tapped reads width db).texts f = if Restored vc.rowNum f then vc.texts f
      else reloaded db vc.groupId (vc.loadedColNum reads db) vc.rowNum vc.texts f := rfl
  have hkept := reloaded_of_hidden (t := vc.texts) hk hb.two_le_colNum hb.one_le_rowNum
    hb.stored_le hf
  rw [htext, show reloaded db vc.groupId (vc.loadedColNum reads db) vc.rowNum vc.texts f =
    vc.texts f from hkept, ite_self]
  exact hblank f hf

end CompareMainVC

namespace App

variable {s s' : App} {e : Event}

/-- The editor in front is plain. -/
def Plain (s : App) : Prop := ∀ vc ∈ s.editor, vc.Plain

theorem Plain.of_no_editor (h : s.editor = none) : s.Plain := by
  intro vc hvc
  rw [h] at hvc
  cases hvc

theorem plain_showing {vc : CompareMainVC} (h : vc.Plain) : (s.showing vc).Plain := by
  intro vc' hvc'
  rwa [← Option.some_inj.mp hvc']

theorem Inv.plain_step (hinv : s.Inv) (h : s.Plain) (he : app.enabled s e)
    (hs : app.step s e = some s') : s'.Plain := by
  have hinv' := hinv.step he hs
  cases hinv.handled he hs with
  | notPresented reads => exact h
  | addNew hed hmax hreads =>
    exact plain_showing
      (CompareMainVC.redisplayed_plain (hinv'.editor _ rfl) hinv.keys fun _ _ => rfl)
  | select hed hrow hg hreads =>
    exact plain_showing
      (CompareMainVC.redisplayed_plain (hinv'.editor _ rfl) hinv.keys fun _ _ => rfl)
  | delete hed hrow hg => exact .of_no_editor hed
  | @edit vc field text hed hf =>
    have hvc := h vc hed
    refine plain_showing ⟨fun f hhidden => ?_, hvc.itemBtn⟩
    have hhidden : ¬ vc.visible f := by
      cases f with
      | _ => exact hhidden
    have hne : f ≠ field := by
      rintro rfl
      exact hhidden hf
    exact (CompareMainVC.setText_apply ..).trans ((if_neg hne).trans (hvc.hidden f hhidden))
  | @addName vc reads hed hbtn =>
    have hb := hinv'.editor _ rfl
    refine plain_showing (CompareMainVC.tapped_plain hb hinv.keys fun f hf => ?_)
    have hcol : vc.colNum + 1 ≤ ({ vc with colNum := vc.colNum + 1 }.tapped reads s.width
        s.db).colNum :=
      @CompareMainVC.le_loadedColNum { vc with colNum := vc.colNum + 1 } s.db reads
    exact (h vc hed).hidden f fun hvis =>
      hf (CompareMainVC.visible_mono (Nat.le_of_succ_le hcol) le_rfl hvis)
  | @addItem vc reads hed hbtn =>
    have hb := hinv'.editor _ rfl
    refine plain_showing (CompareMainVC.tapped_plain hb hinv.keys fun f hf => ?_)
    have hcol : vc.colNum ≤ ({ vc with rowNum := vc.rowNum + 1 }.tapped reads s.width
        s.db).colNum := CompareMainVC.le_loadedColNum
    exact (h vc hed).hidden f fun hvis =>
      hf (CompareMainVC.visible_mono hcol (Nat.le_succ _) hvis)
  | @save vc now writes reads outcome hed hsave =>
    have hb := hinv'.editor _ rfl
    refine plain_showing (CompareMainVC.redisplayed_plain hb hinv'.keys fun f hf => ?_)
    have hcol : vc.colNum ≤ (vc.redisplayed reads s.width (Throwing.store outcome)).colNum :=
      CompareMainVC.le_loadedColNum
    exact (h vc hed).hidden f fun hvis => hf (CompareMainVC.visible_mono hcol le_rfl hvis)
  | back => exact .of_no_editor rfl
  | swipe => exact .of_no_editor rfl
  | layout => exact h
  | launch => exact .of_no_editor rfl

end App

/-- In a reachable state nothing is written where it cannot be seen. -/
theorem Reachable.plain {s : App} (hs : Reachable s) : s.Plain := by
  obtain ⟨es, hrun⟩ := hs
  have hboth : s.Inv ∧ s.Plain :=
    hrun.invariant (I := fun s => s.Inv ∧ s.Plain)
      (fun ⟨hi, h⟩ he hs => ⟨hi.step he hs, hi.plain_step h he hs⟩)
      ⟨App.inv_init, .of_no_editor rfl⟩
  exact hboth.2

/-- **What is out of view.**  In every state the app reaches, whatever failed,
the fields of the editor that are out of view are blank; so a successful save
stores, in the columns on screen, what is shown, and blanks in the rows that
are not shown. -/
theorem hidden_fields_blank {s : App} (hs : Reachable s) {vc : CompareMainVC}
    (hvc : s.editor = some vc) :
    (∀ f, ¬ vc.visible f → vc.texts f = "") ∧
    ∀ now writes reads t, app.Run s [.saveBtnDidTap now writes reads] t →
      (Event.saveBtnDidTap now writes reads).succeeds → ∀ f, f.Within vc.colNum →
        t.db.stored vc.groupId f = some (if vc.visible f then vc.texts f else "") := by
  have hplain := hs.plain vc hvc
  refine ⟨hplain.hidden, ?_⟩
  intro now writes reads t hrun hsave f hf
  obtain ⟨he, hstep⟩ := EventSystem.run_single_iff.mp hrun
  rw [hs.inv.stored_of_save hvc hsave hf he hstep]
  split
  case isTrue hvis => rfl
  case isFalse hhidden => exact congrArg some (hplain.hidden f hhidden)

theorem hidden_fields_blank_unsavedFifthRow : ∃ s vc, app.Run App.init unsavedFifthRow s ∧
    s.editor = some vc ∧ (∀ f, ¬ vc.visible f → vc.texts f = "") ∧
    ∀ now writes reads t, app.Run s [.saveBtnDidTap now writes reads] t →
      (Event.saveBtnDidTap now writes reads).succeeds → ∀ f, f.Within vc.colNum →
        t.db.stored vc.groupId f = some (if vc.visible f then vc.texts f else "") := by
  have hrun := EventSystem.run_get_exec unsavedFifthRow_isSome
  have hed : ((app.exec App.init unsavedFifthRow).get unsavedFifthRow_isSome).editor.isSome =
      true := by decide
  obtain ⟨vc, hvc⟩ := Option.isSome_iff_exists.mp hed
  exact ⟨_, vc, hrun, hvc, hidden_fields_blank ⟨_, hrun⟩ hvc⟩

/-! ### States that look alike -/

/-- The group of the editor, its numbers, and whether it has a + column button. -/
def CompareMainVC.numbers (vc : CompareMainVC) : ℤ × ℕ × ℕ × Bool :=
  (vc.groupId, vc.colNum, vc.rowNum, vc.addNewNameBtn)

/-- The text of a field in view. -/
def CompareMainVC.shown (vc : CompareMainVC) (f : Field) : Option String :=
  if vc.visible f then some (vc.texts f) else none

/-- The two states have the same store and width, and look alike. -/
structure App.SameScreen (s s' : App) : Prop where
  db : s.db = s'.db
  width : s.width = s'.width
  list : s.list = s'.list
  numbers : s.editor.map (·.numbers) = s'.editor.map (·.numbers)
  shown : ∀ f, s.editor.map (·.shown f) = s'.editor.map (·.shown f)

/-- The text of a field is the one shown, or blank. -/
theorem CompareMainVC.Plain.texts_eq {vc : CompareMainVC} (h : vc.Plain) (f : Field) :
    vc.texts f = (vc.shown f).getD "" := by
  rw [shown]
  split
  case isTrue hvis => rfl
  case isFalse hhidden => exact h.hidden f hhidden

/-- An editor is what it shows. -/
theorem CompareMainVC.eq_of_shown {vc vc' : CompareMainVC} (hload : vc.Loaded)
    (hload' : vc'.Loaded) (hplain : vc.Plain) (hplain' : vc'.Plain)
    (hnumbers : vc.numbers = vc'.numbers) (hshown : ∀ f, vc.shown f = vc'.shown f) :
    vc = vc' := by
  have htexts : vc.texts = vc'.texts := by
    funext f
    rw [hplain.texts_eq, hplain'.texts_eq, hshown f]
  cases vc with
  | mk groupId colNum rowNum items contents texts addNewNameBtn addNewItemBtn =>
    obtain rfl : groupId = vc'.groupId := congrArg (·.1) hnumbers
    obtain rfl : colNum = vc'.colNum := congrArg (·.2.1) hnumbers
    obtain rfl : rowNum = vc'.rowNum := congrArg (·.2.2.1) hnumbers
    obtain rfl : addNewNameBtn = vc'.addNewNameBtn := congrArg (·.2.2.2) hnumbers
    have hitems : items = vc'.items := hload.items.trans hload'.items.symm
    have hcontents : contents = vc'.contents := hload.contents.trans hload'.contents.symm
    have hbtn : addNewItemBtn = vc'.addNewItemBtn := hplain.itemBtn.trans hplain'.itemBtn.symm
    rw [hitems, hcontents, hbtn, show texts = vc'.texts from htexts]

/-- **Nothing is hidden.**  Two states the app reaches, by whatever runs, that
have the same store and width, the same list, and editors that look alike are
the same state, so whatever happens next they stay alike. -/
theorem eq_of_sameScreen {s s' : App} (hs : Reachable s) (hs' : Reachable s')
    (h : s.SameScreen s') : s = s' := by
  have hed : s.editor = s'.editor := by
    have hnumbers := h.numbers
    have hshown := h.shown
    cases hvc : s.editor with
    | none =>
      rw [hvc, Option.map_none, eq_comm, Option.map_eq_none_iff] at hnumbers
      exact hnumbers.symm
    | some vc =>
      rw [hvc, Option.map_some, eq_comm, Option.map_eq_some_iff] at hnumbers
      obtain ⟨vc', hvc', hnumbers⟩ := hnumbers
      have hfields : ∀ f, vc.shown f = vc'.shown f := by
        intro f
        have hf := hshown f
        rw [hvc, hvc'] at hf
        exact Option.some_inj.mp hf
      rw [hvc', CompareMainVC.eq_of_shown (hs.inv.editor vc hvc).loaded
        (hs'.inv.editor vc' hvc').loaded (hs.plain vc hvc) (hs'.plain vc' hvc') hnumbers.symm
        hfields]
  cases s with
  | mk db width list editor =>
    obtain rfl : db = s'.db := h.db
    obtain rfl : width = s'.width := h.width
    obtain rfl : list = s'.list := h.list
    rw [show editor = s'.editor from hed]

/-- A new comparison gets a third column, and then a second row. -/
def columnThenRow : List Event :=
  [.addNewHikakuBtnDidTap true .ok, .addNewNameBtnDidTap .ok, .addNewItemBtnDidTap .ok]

/-- It gets them the other way round, after a text was typed and taken back. -/
def rowThenColumn : List Event :=
  [.addNewHikakuBtnDidTap true .ok, .edit .groupNameTF "a", .addNewItemBtnDidTap .ok,
    .edit .groupNameTF "", .addNewNameBtnDidTap .ok]

theorem columnThenRow_isSome : (app.exec App.init columnThenRow).isSome = true := by decide

theorem rowThenColumn_isSome : (app.exec App.init rowThenColumn).isSome = true := by decide

theorem eq_of_sameScreen_columnThenRow : ∃ s, app.Run App.init columnThenRow s ∧
    app.Run App.init rowThenColumn s := by
  have hrun := EventSystem.run_get_exec columnThenRow_isSome
  have hrun' := EventSystem.run_get_exec rowThenColumn_isSome
  have hsame : ((app.exec App.init columnThenRow).get columnThenRow_isSome).SameScreen
      ((app.exec App.init rowThenColumn).get rowThenColumn_isSome) := by
    refine ⟨by decide +kernel, by decide +kernel, by decide +kernel, by decide +kernel, ?_⟩
    intro f
    cases f with
    | groupNameTF => decide +kernel
    | nameTF c => revert c; decide +kernel
    | itemTF k => revert k; decide +kernel
    | contentTF c k => revert c k; decide +kernel
    | memoTV c => revert c; decide +kernel
  refine ⟨_, hrun, ?_⟩
  rw [eq_of_sameScreen ⟨_, hrun⟩ ⟨_, hrun'⟩ hsame]
  exact hrun'

end HikakuKun
