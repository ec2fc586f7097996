/-
How large a comparison gets.

The source has no constant for the largest number of columns or rows.  The
+ row button goes away in the seventh row; the + column button is not added to
the fifth column, nor to the fourth while the screen is narrower than 800.  So a
device that is always narrower shows, and stores, four columns at most.

* `Narrow` — the invariant of the narrow runs;
* `grid_limits` — the limits, each reached by a run;
* `five_columns_once_wide` — where a fifth column comes from.
-/
import Mathlib.Algebra.Order.Ring.Rat
import Mathlib.Order.Bounds.Basic
import HikakuKun.PartialForms

namespace HikakuKun

/-- Every width that the run stores is less than 800. -/
def AlwaysNarrow (es : List Event) : Prop := ∀ width, Event.layoutSubviews width ∈ es → width < 800

namespace App

/-- What holds as long as the screen is narrow. -/
structure Narrow (s : App) : Prop where
  width : s.width < 800
  stored : ∀ g, (s.db.contentsOf g).length ≤ 4
  colNum : ∀ vc ∈ s.editor, vc.colNum ≤ 4
  nameBtn : ∀ vc ∈ s.editor, vc.addNewNameBtn = true → vc.colNum ≤ 3

variable {s s' : App} {e : Event}

/-- Below 800 the + column button is added up to the third column. -/
theorem colNum_le_of_addsNewNameBtn {width : ℚ} {colNum : ℕ} (hwidth : width < 800)
    (h : CompareMainVC.addsNewNameBtn width colNum = true) : colNum ≤ 3 := by
  rcases of_decide_eq_true h with ⟨hwide, -⟩ | ⟨-, hle⟩
  · exact absurd hwide (not_le.mpr hwidth)
  · exact hle

theorem Narrow.of_no_editor (hwidth : s.width < 800)
    (hstored : ∀ g, (s.db.contentsOf g).length ≤ 4) (hed : s.editor = none) : s.Narrow := by
  refine ⟨hwidth, hstored, ?_, ?_⟩
  · intro vc hvc
    rw [hed] at hvc
    cases hvc
  · intro vc hvc
    rw [hed] at hvc
    cases hvc

theorem narrow_init : init.Narrow :=
  .of_no_editor (show (0 : ℚ) < 800 by decide) (fun _ => Nat.zero_le _) rfl

/-- An editor that was just drawn. -/
theorem Narrow.showing {vc : CompareMainVC} (hwidth : s.width < 800)
    (hstored : ∀ g, (s.db.contentsOf g).length ≤ 4) (hcol : vc.colNum ≤ 4)
    (hbtn : vc.addNewNameBtn = true → vc.colNum ≤ 3) : (s.showing vc).Narrow := by
  refine ⟨hwidth, hstored, ?_, ?_⟩
  · intro vc' hvc'
    rwa [← Option.some_inj.mp hvc']
  · intro vc' hvc'
    rwa [← Option.some_inj.mp hvc']

theorem loadedColNum_le_four {vc : CompareMainVC} {reads : Reads} {db : Realm}
    (hstored : (db.contentsOf vc.groupId).length ≤ 4) (hcol : vc.colNum ≤ 4) :
    vc.loadedColNum reads db ≤ 4 := by
  unfold CompareMainVC.loadedColNum
  split
  · exact max_le hcol hstored
  · exact hcol

/-- A handler stores no more columns of a group than were stored or on screen. -/
theorem Inv.length_contentsOf_le (hinv : s.Inv) (he : app.enabled s e)
    (hs : app.step s e = some s') {n : ℕ} (hstored : ∀ g, (s.db.contentsOf g).length ≤ n)
    (hcol : ∀ vc ∈ s.editor, vc.colNum ≤ n) (g : ℤ) : (s'.db.contentsOf g).length ≤ n := by
  rcases hinv.written_step he hs with ⟨-, hdb⟩ | ⟨g', -, hw⟩
  · rw [hdb]
    exact hstored g
  · by_cases hg : g = g'
    · subst hg
      cases hw with
      | delete hrow hcommit hdb =>
        rw [hdb, Realm.contentsOf_deleteGroup]
        exact Nat.zero_le n
      | @save vc now writes reads j hed hvg hcommit hj hlen hle hw =>
        rw [← hvg, hw.length]
        exact max_le (hstored _) (hle.trans (hcol vc hed))
    · rw [hw.sameElsewhere.contents g hg]
      exact hstored g

theorem Inv.narrow_step (hinv : s.Inv) (h : s.Narrow)
    (hnarrow : ∀ width, e = .layoutSubviews width → width < 800) (he : app.enabled s e)
    (hs : app.step s e = some s') : s'.Narrow := by
  have hstored' := hinv.length_contentsOf_le he hs h.stored h.colNum
  have htwo : 2 ≤ 4 := by decide
  have hdrawn : ∀ {colNum : ℕ}, (false || CompareMainVC.addsNewNameBtn s.width colNum) = true →
      colNum ≤ 3 := fun hbtn => colNum_le_of_addsNewNameBtn h.width hbtn
  cases hinv.handled he hs with
  | notPresented reads => exact h
  | addNew hed hmax hreads =>
    exact .showing h.width hstored' (loadedColNum_le_four (h.stored _) htwo) hdrawn
  | select hed hrow hg hreads =>
    exact .showing h.width hstored' (loadedColNum_le_four (h.stored _) htwo) hdrawn
  | delete hed hrow hg => exact .of_no_editor h.width hstored' hed
  | @edit vc field text hed hf =>
    exact .showing h.width hstored' (h.colNum vc hed) (h.nameBtn vc hed)
  | @addName vc reads hed hbtn =>
    have hthree := h.nameBtn vc hed hbtn
    have hcol : { vc with colNum := vc.colNum + 1 }.colNum ≤ 4 := Nat.succ_le_succ hthree
    exact .showing h.width hstored' (loadedColNum_le_four (h.stored _) hcol) hdrawn
  | @addItem vc reads hed hbtn =>
    have hcol : { vc with rowNum := vc.rowNum + 1 }.colNum ≤ 4 := h.colNum vc hed
    exact .showing h.width hstored' (loadedColNum_le_four (h.stored _) hcol) hdrawn
  | @save vc now writes reads outcome hed hsave =>
    obtain ⟨-, hb⟩ := (hinv.editor vc hed).saveData hinv.keys hsave
    have hsame : vc.loadedColNum reads (Throwing.store outcome) = vc.colNum :=
      CompareMainVC.loadedColNum_eq hb.stored_le
    refine .showing h.width hstored' (hsame.le.trans (h.colNum vc hed)) ?_
    -- the button may have been attached before the save
    show (vc.addNewNameBtn || CompareMainVC.addsNewNameBtn s.width
      (vc.loadedColNum reads (Throwing.store outcome))) = true →
        vc.loadedColNum reads (Throwing.store outcome) ≤ 3
    rw [hsame, Bool.or_eq_true]
    rintro (hold | hnew)
    · exact h.nameBtn vc hed hold
    · exact colNum_le_of_addsNewNameBtn h.width hnew
  | back => exact .of_no_editor h.width hstored' rfl
  | swipe => exact .of_no_editor h.width hstored' rfl
  | @layout width => exact ⟨hnarrow width rfl, h.stored, h.colNum, h.nameBtn⟩
  | launch => exact .of_no_editor (show (0 : ℚ) < 800 by decide) hstored' rfl

theorem narrow_of_run {es : List Event} (hrun : app.Run init es s) (hes : AlwaysNarrow es) :
    s.Narrow := by
  have hboth : s.Inv ∧ s.Narrow :=
    hrun.invariant_on (I := fun s => s.Inv ∧ s.Narrow)
      (P := fun e => ∀ width, e = .layoutSubviews width → width < 800)
      (fun ⟨hi, h⟩ hnarrow he hs => ⟨hi.step he hs, hi.narrow_step h hnarrow he hs⟩)
      (fun e he width heq => hes width (heq ▸ he)) ⟨inv_init, narrow_init⟩
  exact hboth.2

end App

/-- **Where a fifth column comes from.**  When a comparison with five columns is
stored or on screen, some screen was at least 800 wide before, whatever failed
on the way. -/
theorem five_columns_once_wide {es : List Event} {s : App} (hrun : app.Run App.init es s)
    (hfive : (∃ g, 5 ≤ (s.db.contentsOf g).length) ∨ ∃ vc ∈ s.editor, 5 ≤ vc.colNum) :
    ∃ width, Event.layoutSubviews width ∈ es ∧ 800 ≤ width := by
  by_contra hnot
  have hes : AlwaysNarrow es := by
    intro width hmem
    by_contra hwide
    exact hnot ⟨width, hmem, not_lt.mp hwide⟩
  have hnarrow := App.narrow_of_run hrun hes
  rcases hfive with ⟨g, hg⟩ | ⟨vc, hvc, hcol⟩
  · have := hnarrow.stored g
    omega
  · have := hnarrow.colNum vc hvc
    omega

/-- A comparison with four columns, on a screen that was never laid out. -/
def fourColumns : List Event :=
  [.addNewHikakuBtnDidTap true .ok, .addNewNameBtnDidTap .ok, .addNewNameBtnDidTap .ok]

/-- A stored comparison with five, on a wide screen. -/
def fiveColumns : List Event :=
  .layoutSubviews 800 :: fourColumns ++ [.addNewNameBtnDidTap .ok, .saveBtnDidTap "" .ok .ok]

/-- A comparison with seven rows. -/
def sevenRows : List Event :=
  .addNewHikakuBtnDidTap true .ok :: List.replicate 6 (.addNewItemBtnDidTap .ok)

theorem fourColumns_isSome : (app.exec App.init fourColumns).isSome = true := by decide

theorem fiveColumns_isSome : (app.exec App.init fiveColumns).isSome = true := by decide +kernel

theorem sevenRows_isSome : (app.exec App.init sevenRows).isSome = true := by decide +kernel

theorem five_columns_once_wide_fiveColumns : ∃ s, app.Run App.init fiveColumns s ∧
    ∃ width, Event.layoutSubviews width ∈ fiveColumns ∧ 800 ≤ width := by
  have hrun := EventSystem.run_get_exec fiveColumns_isSome
  have hfive : 5 ≤ (((app.exec App.init fiveColumns).get fiveColumns_isSome).db.contentsOf
      1).length := by
    decide +kernel
  exact ⟨_, hrun, five_columns_once_wide hrun (.inl ⟨1, hfive⟩)⟩

/-- **The limits of the grid.**  Whatever happens and whatever fails, an editor
shows four columns at most as long as the screen is narrower than 800, five
otherwise, and seven rows; and it can get as far. -/
theorem grid_limits :
    IsGreatest {n | ∃ es s vc, app.Run App.init es s ∧ AlwaysNarrow es ∧
      s.editor = some vc ∧ vc.colNum = n} 4 ∧
    IsGreatest {n | ∃ s vc, Reachable s ∧ s.editor = some vc ∧ vc.colNum = n} 5 ∧
    IsGreatest {n | ∃ s vc, Reachable s ∧ s.editor = some vc ∧ vc.rowNum = n} 7 := by
  refine ⟨⟨?_, ?_⟩, ⟨?_, ?_⟩, ⟨?_, ?_⟩⟩
  · have hnarrow : AlwaysNarrow fourColumns := by
      intro width hmem
      simp [fourColumns] at hmem
    have hcol : ((app.exec App.init fourColumns).get fourColumns_isSome).editor.map
        (·.colNum) = some 4 := by decide
    obtain ⟨vc, hvc, hfour⟩ := Option.map_eq_some_iff.mp hcol
    exact ⟨_, _, vc, EventSystem.run_get_exec fourColumns_isSome, hnarrow, hvc, hfour⟩
  · rintro n ⟨es, s, vc, hrun, hes, hvc, rfl⟩
    exact (App.narrow_of_run hrun hes).colNum vc hvc
  · have hcol : ((app.exec App.init fiveColumns).get fiveColumns_isSome).editor.map
        (·.colNum) = some 5 := by decide +kernel
    obtain ⟨vc, hvc, hfive⟩ := Option.map_eq_some_iff.mp hcol
    exact ⟨_, vc, ⟨_, EventSystem.run_get_exec fiveColumns_isSome⟩, hvc, hfive⟩
  · rintro n ⟨s, vc, hs, hvc, rfl⟩
    exact (hs.inv.editor vc hvc).colNum_le
  · have hrow : ((app.exec App.init sevenRows).get sevenRows_isSome).editor.map
        (·.rowNum) = some 7 := by decide +kernel
    obtain ⟨vc, hvc, hseven⟩ := Option.map_eq_some_iff.mp hrow
    exact ⟨_, vc, ⟨_, EventSystem.run_get_exec sevenRows_isSome⟩, hvc, hseven⟩
  · rintro n ⟨s, vc, hs, hvc, rfl⟩
    exact (hs.inv.editor vc hvc).rowNum_le

end HikakuKun
