/-
Unsaved input across a + tap.

A + row tap backs up and restores every visible row.  A + column tap does not
restore the last row of an editor with 5, 6 or 7 rows, which is then read from
the store.

* `restored_iff_of_visible` — a tap restores the visible fields outside that row;
* `tap_keeps_iff` — exactly when a tap keeps every visible field.
-/
import HikakuKun.Reachable

namespace HikakuKun

/-- The row of a heading or a cell. -/
def Field.row : Field → Option ℕ
  | .itemTF k => some k
  | .contentTF _ k => some k
  | _ => none

theorem Field.row_eq_some_iff {f : Field} {k : ℕ} :
    f.row = some k ↔ ∃ j : Fin 7, j.val = k ∧ (f = .itemTF j ∨ ∃ c, f = .contentTF c j) := by
  constructor
  · intro h
    cases f with
    | itemTF j => exact ⟨j, Option.some_inj.mp h, .inl rfl⟩
    | contentTF c j => exact ⟨j, Option.some_inj.mp h, .inr ⟨c, rfl⟩⟩
    | groupNameTF => cases h
    | nameTF c => cases h
    | memoTV c => cases h
  · rintro ⟨j, rfl, rfl | ⟨c, rfl⟩⟩
    · rfl
    · rfl

namespace CompareMainVC

variable {vc : CompareMainVC} {reads : Reads} {width : ℚ} {db : Realm} {f : Field}

/-- The rows of a tap's ladders, seen from one field. -/
theorem restored_of_row {rowNum k : ℕ} (hf : f.row = some k) :
    Restored rowNum f ↔ k < 2 ∨ (k < 4 ∧ k < rowNum) ∨ (k < 6 ∧ k + 1 < rowNum) := by
  obtain ⟨j, rfl, rfl | ⟨c, rfl⟩⟩ := Field.row_eq_some_iff.mp hf
  · exact Iff.rfl
  · exact Iff.rfl

theorem restored_of_row_eq_none {rowNum : ℕ} (hf : f.row = none) : Restored rowNum f := by
  cases f with
  | itemTF k => cases hf
  | contentTF c k => cases hf
  | groupNameTF => trivial
  | nameTF c => trivial
  | memoTV c => trivial

theorem lt_rowNum_of_visible {k : ℕ} (hf : vc.visible f) (hrow : f.row = some k) :
    k < vc.rowNum := by
  obtain ⟨j, rfl, rfl | ⟨c, rfl⟩⟩ := Field.row_eq_some_iff.mp hrow
  · exact hf
  · exact hf.2

/-- A visible field is restored unless it is in the last row, which a + column
tap restores up to row 4 only. -/
theorem restored_iff_of_visible (hf : vc.visible f) (hrow : vc.rowNum ≤ 7) :
    Restored vc.rowNum f ↔ ¬ (5 ≤ vc.rowNum ∧ f.row = some (vc.rowNum - 1)) := by
  cases hk : f.row with
  | none =>
    constructor
    · intro _ h
      cases h.2
    · intro _
      exact restored_of_row_eq_none hk
  | some k =>
    have hlt := lt_rowNum_of_visible hf hk
    rw [restored_of_row hk, Option.some_inj]
    omega

/-- After one more row every visible field is restored. -/
theorem restored_succ_of_visible (hf : vc.visible f) (hrow : vc.rowNum ≤ 6) :
    Restored (vc.rowNum + 1) f := by
  cases hk : f.row with
  | none => exact restored_of_row_eq_none hk
  | some k =>
    have hlt := lt_rowNum_of_visible hf hk
    rw [restored_of_row hk]
    omega

/-- A row after the first is reloaded, if it is shown and the store has a
value. -/
theorem reloaded_of_row {colNum rowNum : ℕ} {t : Texts} {g : ℤ} {k : ℕ} (hf : f.row = some k)
    (hpos : 0 < k) :
    reloaded db g colNum rowNum t f =
      if k < rowNum then (db.stored g f).getD (t f) else t f := by
  obtain ⟨j, rfl, hj⟩ := Field.row_eq_some_iff.mp hf
  -- row 1 is loaded under guards of its own
  have hne : j ≠ 0 := by
    rintro rfl
    exact Nat.lt_irrefl 0 hpos
  rcases hj with rfl | ⟨c, rfl⟩
  · rw [reloaded, if_neg hne]
  · rw [reloaded, if_neg hne]

/-- The last row holds no text that differs from a stored one, or it is one of
the first four rows. -/
def LastRowKept (db : Realm) (vc : CompareMainVC) : Prop :=
  5 ≤ vc.rowNum → ∀ f, vc.visible f → f.row = some (vc.rowNum - 1) →
    ∀ v ∈ db.stored vc.groupId f, v = vc.texts f

/-- A + column tap keeps the visible fields exactly when the last row has
nothing to lose. -/
theorem tapped_addNewName_keeps_iff (hrow : vc.rowNum ≤ 7) :
    (∀ f, vc.visible f →
      ({ vc with colNum := vc.colNum + 1 }.tapped reads width db).texts f = vc.texts f) ↔
      LastRowKept db vc := by
  have htext : ∀ f, ({ vc with colNum := vc.colNum + 1 }.tapped reads width db).texts f =
      if Restored vc.rowNum f then vc.texts f
      else reloaded db vc.groupId ({ vc with colNum := vc.colNum + 1 }.loadedColNum reads db)
        vc.rowNum vc.texts f := fun _ => rfl
  have hlast : ∀ f, vc.visible f → 5 ≤ vc.rowNum → f.row = some (vc.rowNum - 1) →
      ({ vc with colNum := vc.colNum + 1 }.tapped reads width db).texts f =
        (db.stored vc.groupId f).getD (vc.texts f) := by
    intro f hf hfive hfrow
    rw [htext, if_neg (fun h => (restored_iff_of_visible hf hrow).mp h ⟨hfive, hfrow⟩),
      reloaded_of_row hfrow (by omega), if_pos (by omega)]
  constructor
  · intro h hfive f hf hfrow v hv
    have := h f hf
    rw [hlast f hf hfive hfrow, Option.mem_def.mp hv] at this
    exact this
  · intro h f hf
    by_cases hlost : 5 ≤ vc.rowNum ∧ f.row = some (vc.rowNum - 1)
    · rw [hlast f hf hlost.1 hlost.2]
      cases hv : db.stored vc.groupId f with
      | none => rfl
      | some v => exact h hlost.1 f hf hlost.2 v hv
    · rw [htext, if_pos ((restored_iff_of_visible hf hrow).mpr hlost)]

end CompareMainVC

/-- **Unsaved input across a tap.**  A + row tap keeps every visible field; a
+ column tap does exactly when no text of a fifth, sixth or seventh row, being
the last one, differs from its stored value. -/
theorem tap_keeps_iff {s : App} (hs : Reachable s) {vc : CompareMainVC} (hvc : s.editor = some vc)
    (reads : Reads) :
    (vc.addNewItemBtn = true → ∃ t vc', app.Run s [.addNewItemBtnDidTap reads] t ∧
      t.editor = some vc' ∧ ∀ f, vc.visible f → vc'.texts f = vc.texts f) ∧
    (vc.addNewNameBtn = true → ∃ t vc', app.Run s [.addNewNameBtnDidTap reads] t ∧
      t.editor = some vc' ∧
      ((∀ f, vc.visible f → vc'.texts f = vc.texts f) ↔ vc.LastRowKept s.db)) := by
  have hb := hs.inv.editor vc hvc
  constructor
  · intro hbtn
    have hstep := App.addNewItemBtnDidTap_eq hs.inv hvc hbtn reads
    refine ⟨_, _, EventSystem.run_single_iff.mpr ⟨⟨vc, hvc, hbtn⟩, hstep⟩, rfl, ?_⟩
    intro f hf
    exact if_pos (CompareMainVC.restored_succ_of_visible hf (hb.itemBtn hbtn))
  · intro hbtn
    have hstep := App.addNewNameBtnDidTap_eq hs.inv hvc hbtn reads
    exact ⟨_, _, EventSystem.run_single_iff.mpr ⟨⟨vc, hvc, hbtn⟩, hstep⟩, rfl,
      CompareMainVC.tapped_addNewName_keeps_iff hb.rowNum_le⟩

/-- A saved comparison with five rows, and an unsaved heading in the fifth. -/
def unsavedFifthRow : List Event :=
  [.addNewHikakuBtnDidTap true .ok, .addNewItemBtnDidTap .ok, .addNewItemBtnDidTap .ok,
    .addNewItemBtnDidTap .ok, .addNewItemBtnDidTap .ok, .saveBtnDidTap "" .ok .ok,
    .edit (.itemTF 4) "a"]

theorem unsavedFifthRow_isSome : (app.exec App.init unsavedFifthRow).isSome = true := by decide

theorem tap_keeps_iff_unsavedFifthRow : ∃ s vc, app.Run App.init unsavedFifthRow s ∧
    s.editor = some vc ∧
    (∃ t vc', app.Run s [.addNewItemBtnDidTap .ok] t ∧ t.editor = some vc' ∧
      ∀ f, vc.visible f → vc'.texts f = vc.texts f) ∧
    ∃ t vc', app.Run s [.addNewNameBtnDidTap .ok] t ∧ t.editor = some vc' ∧
      ((∀ f, vc.visible f → vc'.texts f = vc.texts f) ↔ vc.LastRowKept s.db) := by
  have hrun := EventSystem.run_get_exec unsavedFifthRow_isSome
  have hbtns : ((app.exec App.init unsavedFifthRow).get unsavedFifthRow_isSome).editor.map
      (fun vc => (vc.addNewItemBtn, vc.addNewNameBtn)) = some (true, true) := by decide
  obtain ⟨vc, hvc, hbtns⟩ := Option.map_eq_some_iff.mp hbtns
  obtain ⟨hitemBtn, hnameBtn⟩ := Prod.mk.inj hbtns
  obtain ⟨hitem, hname⟩ := tap_keeps_iff ⟨_, hrun⟩ hvc Reads.ok
  exact ⟨_, vc, hrun, hvc, hitem hitemBtn, hname hnameBtn⟩

/-- A + column tap loses the heading. -/
theorem unsavedFifthRow_lost : ∃ s vc t vc', app.Run App.init unsavedFifthRow s ∧
    s.editor = some vc ∧ app.Run s [.addNewNameBtnDidTap .ok] t ∧ t.editor = some vc' ∧
    vc.visible (.itemTF 4) ∧ vc.texts (.itemTF 4) = "a" ∧ vc'.texts (.itemTF 4) = "" := by
  have htapped : (app.exec App.init
      (unsavedFifthRow ++ [.addNewNameBtnDidTap .ok])).isSome = true := by decide
  have hbefore : ((app.exec App.init unsavedFifthRow).get unsavedFifthRow_isSome).editor.map
      (fun vc => (decide (vc.visible (.itemTF 4)), vc.texts (.itemTF 4))) = some (true, "a") := by
    decide
  have hafter : ((app.exec App.init (unsavedFifthRow ++ [.addNewNameBtnDidTap .ok])).bind
      App.editor).map (·.texts (.itemTF 4)) = some "" := by
    decide +kernel
  rw [← Option.some_get htapped] at hafter
  have hrun := EventSystem.run_get_exec unsavedFifthRow_isSome
  obtain ⟨s, hs, ht⟩ := EventSystem.run_append_iff.mp (EventSystem.run_get_exec htapped)
  obtain rfl := hs.det hrun
  obtain ⟨vc, hvc, htext⟩ := Option.map_eq_some_iff.mp hbefore
  obtain ⟨vc', hvc', htext'⟩ := Option.map_eq_some_iff.mp hafter
  obtain ⟨hvisible, htext⟩ := Prod.mk.inj htext
  exact ⟨_, vc, _, vc', hrun, hvc, ht, hvc', of_decide_eq_true hvisible, htext, htext'⟩

end HikakuKun
