/-
What a failing Realm operation can do.

The insert branch of a save is one transaction for the item and one for each
column, and the first `viewDidLoad` of an editor unwraps the results it may have
failed to load.

* `saveData_atomic_iff` — exactly which saves leave the store alone when they
  throw;
* `no_trap_iff` — exactly which runs meet no trap.
-/
import HikakuKun.RunInvariants

namespace HikakuKun

/-! ### Atomic saves -/

namespace CompareMainVC

variable {vc : CompareMainVC} {now : String} {writes : Writes} {db : Realm}

/-- The item of an insert has been written when a column fails. -/
theorem inserted_ne (j : ℕ) : vc.inserted now db j ≠ db := by
  intro h
  have hlen := congrArg (fun db => db.items.length) h
  simp [inserted] at hlen

/-- One transaction: an update that throws has written nothing. -/
theorem update_atomic {db' : Realm} (hload : vc.Loaded) (hitems : db.itemsOf vc.groupId ≠ [])
    (h : vc.saveData now writes db = some (.error db')) : db' = db := by
  rw [saveData_eq_write now writes hload hitems] at h
  split at h
  · obtain ⟨db'', -, hwrite⟩ := Option.map_eq_some_iff.mp h
    exact Throwing.eq_of_attempt_eq_error hwrite
  · cases h
    rfl

/-- **Atomic saves.**  A save is all-or-nothing exactly when it updates, fails
no later than its item, or has no column that fails. -/
theorem saveData_atomic_iff (hload : vc.Loaded) :
    (∀ db', vc.saveData now writes db = some (.error db') → db' = db) ↔
      db.itemsOf vc.groupId ≠ [] ∨ writes.opens = false ∨ writes.write 0 = false ∨
        ∀ col < vc.colNum, writes.write (col + 1) = true := by
  by_cases hitems : db.itemsOf vc.groupId = []
  · rw [saveData_eq_insertData now writes hload hitems]
    rcases insertData_cases vc now writes db with
      ⟨hfail, heq⟩ | ⟨-, -, hall, heq⟩ | ⟨hopens, hitem, j, hj, -, hcol, heq⟩
    · rw [heq]
      constructor
      · intro _
        exact .inr (hfail.imp id .inl)
      · intro _ db' h
        cases h
        rfl
    · rw [heq]
      constructor
      · intro _
        exact .inr (.inr (.inr hall))
      · intro _ db' h
        cases h
    · rw [heq]
      constructor
      · intro h
        exact absurd (h _ rfl) (inserted_ne j)
      · rintro (h | h | h | h)
        · exact absurd hitems h
        · rw [hopens] at h
          cases h
        · rw [hitem] at h
          cases h
        · rw [h j hj] at hcol
          cases hcol
  · constructor
    · intro _
      exact .inl hitems
    · intro _ db' h
      exact update_atomic hload hitems h

end CompareMainVC

/-- The editor of a new comparison whose save fails at its second column: the
item and the first column stay. -/
theorem saveData_not_atomic : ∃ s vc db',
    app.Run App.init [.addNewHikakuBtnDidTap true .ok] s ∧ s.editor = some vc ∧
    vc.saveData "" (.failingAt 2) s.db = some (.error db') ∧ db' ≠ s.db := by
  have hadd : (app.exec App.init [.addNewHikakuBtnDidTap true .ok]).isSome = true := by decide
  refine ⟨_, _, _, EventSystem.run_get_exec hadd, rfl, rfl, ?_⟩
  exact fun h => Nat.noConfusion (congrArg (fun db : Realm => db.items.length) h)

/-- A failing item transaction leaves the store alone. -/
theorem saveData_atomic_iff_failingAt_zero : ∃ s vc,
    app.Run App.init [.addNewHikakuBtnDidTap true .ok] s ∧ s.editor = some vc ∧
    ((∀ db', vc.saveData "" (.failingAt 0) s.db = some (.error db') → db' = s.db) ↔
      s.db.itemsOf vc.groupId ≠ [] ∨ (Writes.failingAt 0).opens = false ∨
        (Writes.failingAt 0).write 0 = false ∨
        ∀ col < vc.colNum, (Writes.failingAt 0).write (col + 1) = true) := by
  have hadd : (app.exec App.init [.addNewHikakuBtnDidTap true .ok]).isSome = true := by decide
  have hrun := EventSystem.run_get_exec hadd
  have hed : ((app.exec App.init [.addNewHikakuBtnDidTap true .ok]).get hadd).editor.isSome = true :=
    rfl
  obtain ⟨vc, hvc⟩ := Option.isSome_iff_exists.mp hed
  have hload := ((App.inv_of_run hrun).editor vc hvc).loaded
  exact ⟨_, vc, hrun, hvc, CompareMainVC.saveData_atomic_iff hload⟩

/-! ### Traps -/

namespace App

/-- What keeps the handler of an event from trapping: the reads of an editor
that is presented, and two stored columns under an item that is updated. -/
def SafeIn (s : App) : Event → Prop
  | .addNewHikakuBtnDidTap opens reads => opens = true → reads.succeed
  | .didSelectRowAt _ _ reads => reads.succeed
  | .saveBtnDidTap _ writes _ => ∀ vc ∈ s.editor, writes.opens = true →
      s.db.itemsOf vc.groupId ≠ [] → 2 ≤ (s.db.contentsOf vc.groupId).length
  | _ => True

variable {s : App} {e : Event}

theorem Inv.step_ne_none_iff (h : s.Inv) (he : app.enabled s e) :
    app.step s e ≠ none ↔ s.SafeIn e := by
  cases e with
  | addNewHikakuBtnDidTap opens reads =>
    rw [app_step, addNewHikakuBtnDidTap_eq h]
    cases opens with
    | false => exact ⟨fun _ hopens => (by cases hopens), fun _ => Option.some_ne_none s⟩
    | true =>
      obtain ⟨max, hmax⟩ := CompareItemRealm.exists_getMaxGroupId s.db
      simp only [hmax]
      split
      case isTrue hreads => exact ⟨fun _ _ => hreads, fun _ => Option.some_ne_none _⟩
      case isFalse hreads => exact ⟨fun h => absurd rfl h, fun h => absurd (h rfl) hreads⟩
  | didSelectRowAt row select reads =>
    obtain ⟨g, hg⟩ := h.groupId_of_row he.2
    rw [app_step, didSelectRowAt_eq h hg]
    split
    case isTrue hreads => exact ⟨fun _ => hreads, fun _ => Option.some_ne_none _⟩
    case isFalse hreads => exact ⟨fun h => absurd rfl h, fun h => absurd h hreads⟩
  | confirmDelete row delete =>
    obtain ⟨g, hg⟩ := h.groupId_of_row he.2
    rw [app_step, confirmDelete_eq he.2 hg]
    exact ⟨fun _ => trivial, fun _ => Option.some_ne_none _⟩
  | edit field text =>
    obtain ⟨vc, hed, -⟩ := he
    rw [app_step, edit_eq hed]
    exact ⟨fun _ => trivial, fun _ => Option.some_ne_none _⟩
  | addNewNameBtnDidTap reads =>
    obtain ⟨vc, hed, hbtn⟩ := he
    rw [app_step, addNewNameBtnDidTap_eq h hed hbtn]
    exact ⟨fun _ => trivial, fun _ => Option.some_ne_none _⟩
  | addNewItemBtnDidTap reads =>
    obtain ⟨vc, hed, hbtn⟩ := he
    rw [app_step, addNewItemBtnDidTap_eq h hed hbtn]
    exact ⟨fun _ => trivial, fun _ => Option.some_ne_none _⟩
  | saveBtnDidTap now writes reads =>
    obtain ⟨vc, hed⟩ := Option.isSome_iff_exists.mp he
    have hb := h.editor vc hed
    rw [app_step, saveBtnDidTap_eq h hed, Ne, Option.map_eq_none_iff,
      CompareMainVC.saveData_eq_none_iff h.keys hb.loaded hb.two_le_colNum hb.colNum_le]
    constructor
    · intro hnot vc' hvc' hopens hitems
      cases hed.symm.trans hvc'
      by_contra hlen
      exact hnot ⟨hitems, by omega, hopens⟩
    · rintro hsafe ⟨hitems, hlen, hopens⟩
      have := hsafe vc hed hopens hitems
      omega
  | backBtnDidTap opens => exact ⟨fun _ => trivial, fun _ => Option.some_ne_none _⟩
  | swipeDown => exact ⟨fun _ => trivial, fun _ => Option.some_ne_none _⟩
  | layoutSubviews width => exact ⟨fun _ => trivial, fun _ => Option.some_ne_none _⟩
  | launch opens => exact ⟨fun _ => trivial, fun _ => Option.some_ne_none _⟩

end App

/-- **Traps.**  A run meets no trap exactly when each editor's first load can
read the store, and no save updates a group with fewer than two columns. -/
theorem no_trap_iff {es : List Event} (h : app.AlongRun app.enabled App.init es) :
    app.AlongRun (fun s e => app.step s e ≠ none) App.init es ↔
      app.AlongRun App.SafeIn App.init es :=
  EventSystem.alongRun_congr (fun hi he hs => hi.step he hs)
    (fun hi he => hi.step_ne_none_iff he) App.inv_init h

theorem no_trap_iff_partialSave :
    app.AlongRun (fun s e => app.step s e ≠ none) App.init partialSave ↔
      app.AlongRun App.SafeIn App.init partialSave :=
  no_trap_iff (EventSystem.run_get_exec partialSave_isSome).alongRun_enabled

/-- A save that failed at its second column, tried again in the same editor,
updates a group with one column and unwraps the second. -/
theorem partialSave_retry_traps :
    app.AlongRun app.enabled App.init (partialSave ++ [.saveBtnDidTap "" .ok .ok]) ∧
    ¬ app.AlongRun (fun s e => app.step s e ≠ none) App.init
      (partialSave ++ [.saveBtnDidTap "" .ok .ok]) := by
  have hrun := EventSystem.run_get_exec partialSave_isSome
  constructor
  · refine (EventSystem.alongRun_append hrun).mpr ⟨hrun.alongRun_enabled, ?_, ?_⟩
    · show Option.isSome _ = true
      rfl
    · exact fun _ _ => trivial
  · intro h
    obtain ⟨hne, -⟩ := ((EventSystem.alongRun_append hrun).mp h).2
    exact hne rfl

end HikakuKun
