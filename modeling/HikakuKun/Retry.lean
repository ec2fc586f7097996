/-
A failed save is tried again.

The display after a failed save may have lost what was typed, and the retry
saves what is displayed.  A first save that stopped before its second column
leaves a comparison that no retry can save.

* `Inv.exists_run_retry_iff` — when the retry does not trap;
* `failed_save_retried_iff` — exactly when it stores what was typed.
-/
import HikakuKun.PartialForms
import HikakuKun.Screen

namespace HikakuKun

section Retry

variable {s t : App} {vc : CompareMainVC} {db' : Realm} {now now' : String}
  {writes writes' : Writes} {reads reads' : Reads}

/-- The state a failed save leaves. -/
theorem App.Inv.run_failed_save (hinv : s.Inv) (hvc : s.editor = some vc)
    (hfail : vc.saveData now writes s.db = some (.error db')) (reads : Reads) :
    app.Run s [.saveBtnDidTap now writes reads]
      ({ s with db := db' }.showing (vc.redisplayed reads s.width db')) :=
  hinv.run_save hvc hfail reads

/-- After a failed save, the next one traps exactly when the comparison is left
with less than two columns and the store opens. -/
theorem App.Inv.exists_run_retry_iff (hinv : s.Inv) (hvc : s.editor = some vc)
    (hfail : vc.saveData now writes s.db = some (.error db')) :
    (∃ t, app.Run s ([.saveBtnDidTap now writes reads] ++
        [.saveBtnDidTap now' writes' reads']) t) ↔
      ¬ (db'.CutShort vc.groupId ∧ writes'.opens = true) := by
  have hrun := hinv.run_failed_save hvc hfail reads
  have hinv' := hinv.of_run hrun
  have hb' := hinv'.editor _ rfl
  have htrap : (vc.redisplayed reads s.width db').saveData now' writes' db' = none ↔
      db'.CutShort vc.groupId ∧ writes'.opens = true :=
    (CompareMainVC.saveData_eq_none_iff hinv'.keys hb'.loaded hb'.two_le_colNum
      hb'.colNum_le).trans and_assoc.symm
  rw [← htrap]
  constructor
  · rintro ⟨t, ht⟩ hnone
    obtain ⟨u, hu, hlast⟩ := EventSystem.run_append_iff.mp ht
    obtain rfl := hu.det hrun
    obtain ⟨he, hs⟩ := EventSystem.run_single_iff.mp hlast
    cases hinv'.handled he hs with
    | @save vc' _ _ _ outcome hed hsave =>
      obtain rfl := Option.some_inj.mp hed
      cases hnone.symm.trans hsave
  · intro hsome
    obtain ⟨outcome, hsave⟩ := Option.ne_none_iff_exists'.mp hsome
    exact ⟨_, hrun.append (hinv'.run_save rfl hsave reads')⟩

/-- **A save tried again.**  When a save throws and the next one succeeds, what
was on screen before the first is what is stored in the end exactly when the
first display lost nothing: the failed save had nothing newer than the store to
lose, or, for a new comparison, the columns it did not write had a blank memo
and a blank first cell. -/
theorem failed_save_retried_iff (hs : Reachable s) (hvc : s.editor = some vc)
    (hfail : vc.saveData now writes s.db = some (.error db'))
    (hrun : app.Run s ([.saveBtnDidTap now writes reads] ++
      [.saveBtnDidTap now' writes' reads']) t)
    (hsave : (Event.saveBtnDidTap now' writes' reads').succeeds) :
    (∀ f, f.Within vc.colNum → t.db.stored vc.groupId f = some (vc.texts f)) ↔
      vc.FailedSaveKeeps writes s.db := by
  have hinv := hs.inv
  have hb := hinv.editor vc hvc
  have hplain := hs.plain vc hvc
  obtain ⟨u, hu, hlast⟩ := EventSystem.run_append_iff.mp hrun
  obtain rfl := hu.det (hinv.run_failed_save hvc hfail reads)
  obtain ⟨he, hstep⟩ := EventSystem.run_single_iff.mp hlast
  have hinv' := hinv.of_run hu
  have hplain' : (vc.redisplayed reads s.width db').Plain := by
    obtain ⟨he, hstep⟩ := EventSystem.run_single_iff.mp hu
    exact hinv.plain_step hs.plain he hstep _ rfl
  have hcol : (vc.redisplayed reads s.width db').colNum = vc.colNum :=
    CompareMainVC.loadedColNum_eq (hb.saveData hinv.keys hfail).2.stored_le
  have hvisible : ∀ f, (vc.redisplayed reads s.width db').visible f ↔ vc.visible f := fun f =>
    ⟨CompareMainVC.visible_mono hcol.le le_rfl, CompareMainVC.visible_mono hcol.ge le_rfl⟩
  have hstored : ∀ f : Field, f.Within vc.colNum →
      t.db.stored vc.groupId f = some ((vc.redisplayed reads s.width db').texts f) :=
    fun f hf => hinv'.stored_of_save rfl hsave (hcol ▸ hf) he hstep
  rw [← CompareMainVC.redisplayed_keeps_iff hb hinv.keys hfail reads s.width]
  constructor
  · intro h f hf
    have hwithin := CompareMainVC.within_of_visible hf
    exact Option.some_inj.mp ((hstored f hwithin).symm.trans (h f hwithin))
  · intro h f hf
    rw [hstored f hf, Option.some_inj]
    by_cases hvis : vc.visible f
    · exact h f hvis
    · rw [hplain.hidden f hvis, hplain'.hidden f fun hvis' => hvis ((hvisible f).mp hvis')]

end Retry

theorem failed_save_retried_iff_unsavedMemo : ∃ s vc t, app.Run App.init unsavedMemo s ∧
    s.editor = some vc ∧
    app.Run s ([.saveBtnDidTap "" (.failingAt 0) .ok] ++ [.saveBtnDidTap "" .ok .ok]) t ∧
    ((∀ f, f.Within vc.colNum → t.db.stored vc.groupId f = some (vc.texts f)) ↔
      vc.FailedSaveKeeps (.failingAt 0) s.db) := by
  obtain ⟨s, vc, hrun, hvc, -, -, hfail⟩ := unsavedMemo_fails
  have hs : Reachable s := ⟨_, hrun⟩
  have hnotCut : ¬ (s.db.CutShort vc.groupId ∧ Writes.ok.opens = true) := by
    rintro ⟨⟨hstored, -⟩, -⟩
    obtain rfl := hrun.det (EventSystem.run_get_exec unsavedMemo_isSome)
    exact hstored rfl
  obtain ⟨t, ht⟩ := (@App.Inv.exists_run_retry_iff s vc s.db "" "" (.failingAt 0) .ok .ok .ok
    hs.inv hvc hfail).mpr hnotCut
  exact ⟨s, vc, t, hrun, hvc, ht,
    failed_save_retried_iff hs hvc hfail ht ⟨rfl, fun _ => rfl, rfl, rfl⟩⟩

end HikakuKun
