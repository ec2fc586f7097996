/-
A comparison is saved and opened again.

The list screen counts the rows of a stored comparison without its first
column, and a first load skips the first two cells under a blank heading.  So
what comes back is what was saved, or less.  What came back once comes back
every time: an opened comparison that is saved as it is loses nothing.

* `Holds` — the store holds what the editor shows;
* `Holds.opened_texts_iff` — exactly when an opening gives all of it back;
* `saved_and_reopened` — the same, along a save, a way back and an opening;
* `reopening_settles` — any number of times, from an opened comparison.
-/
import Mathlib.Logic.Relation
import HikakuKun.Screen

namespace HikakuKun

open CompareMainVC (fresh)

/-- The rows the list screen counts, in terms of fields. -/
theorem Realm.rowAsked_iff {db : Realm} {g : ℤ} (hk : db.GroupKeys g) {k : Fin 7} :
    db.RowAsked g k ↔
      ∃ f, f.row = some k.val ∧ (∀ j, f ≠ .contentTF 0 j) ∧ db.NonBlank g f := by
  constructor
  · rintro (⟨item, hitem, hne⟩ | ⟨content, hmem, hid, hne⟩)
    · obtain ⟨item', heq⟩ := hk.exists_itemsOf_eq (List.ne_nil_of_mem hitem)
      refine ⟨.itemTF k, rfl, fun j => Field.noConfusion, item.item k, ?_, hne⟩
      rw [heq, List.mem_singleton] at hitem
      rw [stored, heq, hitem]
      rfl
    · have hlt := hk.numbered.lt_length hmem
      have hfive := hk.le_five
      refine ⟨.contentTF ⟨content.id, by omega⟩ k, rfl, ?_, content.content k, ?_, hne⟩
      · intro j heq
        exact hid (congrArg Fin.val (Field.contentTF.inj heq).1)
      · rw [stored, hk.firstWithId_eq_some_iff.mpr ⟨hmem, rfl⟩]
        rfl
  · rintro ⟨f, hrow, hcol, v, hv, hne⟩
    obtain ⟨j, hj, hf⟩ := Field.row_eq_some_iff.mp hrow
    obtain rfl : j = k := Fin.ext hj
    rcases hf with rfl | ⟨c, rfl⟩
    · obtain ⟨item, hitem, rfl⟩ := Option.map_eq_some_iff.mp hv
      exact .inl ⟨item, List.mem_of_head? hitem, hne⟩
    · obtain ⟨content, hc, rfl⟩ := Option.map_eq_some_iff.mp hv
      obtain ⟨hmem, hid⟩ := hk.firstWithId_eq_some_iff.mp hc
      refine .inr ⟨content, hmem, ?_, hne⟩
      intro h0
      have hzero : c = 0 := Fin.ext (hid.symm.trans h0)
      exact hcol j (by rw [hzero])

namespace CompareMainVC

/-- The editor that the list screen presents for group `g`, its reads
succeeding. -/
def opened (db : Realm) (g : ℤ) (width : ℚ) : CompareMainVC :=
  (fresh g (ViewController.idNum (db.itemsOf g) (db.contentsOf g))).redisplayed .ok width db

/-- Row `k` of the editor holds text outside the first column. -/
def RowHeld (vc : CompareMainVC) (k : Fin 7) : Prop :=
  ∃ f, f.row = some k.val ∧ (∀ j, f ≠ .contentTF 0 j) ∧ vc.texts f ≠ ""

/-- The condition under which a saved editor comes back whole. -/
structure Reopens (vc : CompareMainVC) : Prop where
  /-- No cell of the first two columns is under a blank first heading. -/
  firstRow : ∀ c : Fin 5, c.val < 2 → vc.texts (.contentTF c 0) ≠ "" → vc.texts (.itemTF 0) ≠ ""
  /-- A cell of the first column has text beside it, or in a row below. -/
  firstColumn : ∀ k : Fin 7, k ≠ 0 → vc.texts (.contentTF 0 k) ≠ "" → ∃ j, k ≤ j ∧ vc.RowHeld j

/-- The store holds what the editor shows, and no more. -/
structure Holds (db : Realm) (vc : CompareMainVC) : Prop where
  items : db.itemsOf vc.groupId ≠ []
  columns : (db.contentsOf vc.groupId).length = vc.colNum
  stored : ∀ f, f.Within vc.colNum → db.stored vc.groupId f = some (vc.texts f)

variable {db : Realm} {vc : CompareMainVC} {g : ℤ} {width : ℚ} {f : Field}

theorem opened_bounded (hk : db.Keys) : (opened db g width).Bounded db :=
  App.fresh_bounded hk g ⟨ViewController.one_le_idNum, ViewController.idNum_le_seven⟩
    ⟨rfl, rfl⟩ width

theorem opened_plain (hk : db.Keys) : (opened db g width).Plain :=
  redisplayed_plain (opened_bounded hk) hk fun _ _ => rfl

namespace Holds

theorem nonBlank_iff (h : Holds db vc) (hk : db.Keys) (hplain : vc.Plain) :
    db.NonBlank vc.groupId f ↔ vc.texts f ≠ "" := by
  constructor
  · rintro ⟨v, hv, hne⟩
    have hwithin := Realm.within_of_stored (hk vc.groupId).numbered hv
    rw [h.columns] at hwithin
    rw [h.stored f hwithin, Option.some_inj] at hv
    rwa [hv]
  · intro hne
    have hvis : vc.visible f := by
      by_contra hhidden
      exact hne (hplain.hidden f hhidden)
    exact ⟨vc.texts f, h.stored f (within_of_visible hvis), hne⟩

theorem opened_colNum (h : Holds db vc) (htwo : 2 ≤ vc.colNum) :
    (opened db vc.groupId width).colNum = vc.colNum := by
  have hlen : 1 < (db.contentsOf vc.groupId).length := by
    rw [h.columns]
    exact htwo
  refine (if_pos ⟨⟨rfl, rfl⟩, hlen⟩).trans ?_
  show max 2 (db.contentsOf vc.groupId).length = vc.colNum
  rw [h.columns]
  exact max_eq_right htwo

/-- The rows that come back are those up to the last one with text outside the
first column. -/
theorem lt_opened_rowNum_iff (h : Holds db vc) (hk : db.Keys) (hplain : vc.Plain) {k : Fin 7}
    (h0 : k ≠ 0) : k.val < (opened db vc.groupId width).rowNum ↔ ∃ j, k ≤ j ∧ vc.RowHeld j := by
  refine (ViewController.lt_idNum_iff (hk vc.groupId) h.items h0).trans ?_
  refine exists_congr fun j => and_congr_right fun _ => ?_
  rw [Realm.rowAsked_iff (hk vc.groupId)]
  refine exists_congr fun f => and_congr_right fun _ => and_congr_right fun _ => ?_
  exact h.nonBlank_iff hk hplain

/-- A text comes back, or its field is blank. -/
theorem opened_text (h : Holds db vc) (hk : db.Keys) (hplain : vc.Plain) (htwo : 2 ≤ vc.colNum)
    (width : ℚ) (f : Field) : KeptText db vc.groupId (opened db vc.groupId width).rowNum
      (opened db vc.groupId width).rowNum f (vc.texts f)
      ((opened db vc.groupId width).texts f) := by
  have hcol : (opened db vc.groupId width).colNum = vc.colNum := h.opened_colNum htwo
  by_cases hf : f.Within vc.colNum
  · have hf' : f.Within (opened db vc.groupId width).colNum := by rwa [hcol]
    exact keptText_reloaded (h.stored f hf) hf'
  -- fields of columns that are not there are blank on both sides
  · have hhidden : ¬ vc.visible f := fun hvis => hf (within_of_visible hvis)
    have hhidden' : ¬ (opened db vc.groupId width).visible f := by
      intro hvis
      exact hf (hcol ▸ within_of_visible hvis)
    rw [hplain.hidden f hhidden, (opened_plain hk).hidden f hhidden']
    exact ⟨fun _ => rfl, fun _ => rfl⟩

theorem opened_text_iff (h : Holds db vc) (hk : db.Keys) (hplain : vc.Plain)
    (htwo : 2 ≤ vc.colNum) :
    (opened db vc.groupId width).texts f = vc.texts f ↔
      (vc.texts f ≠ "" → Kept db vc.groupId (opened db vc.groupId width).rowNum
        (opened db vc.groupId width).rowNum f) := by
  have htext := h.opened_text hk hplain htwo width f
  constructor
  · intro heq hne
    by_contra hlost
    exact hne (heq ▸ htext.2 hlost)
  · intro hkept
    by_cases hne : vc.texts f = ""
    · rw [hne]
      by_cases hk' : Kept db vc.groupId (opened db vc.groupId width).rowNum
          (opened db vc.groupId width).rowNum f
      · exact (htext.1 hk').trans hne
      · exact htext.2 hk'
    · exact htext.1 (hkept hne)

/-- All texts come back exactly when the editor is one of those that do. -/
theorem opened_texts_iff (h : Holds db vc) (hk : db.Keys) (hplain : vc.Plain)
    (htwo : 2 ≤ vc.colNum) (width : ℚ) :
    (opened db vc.groupId width).texts = vc.texts ↔ vc.Reopens := by
  constructor
  · intro heq
    have hkept : ∀ f, vc.texts f ≠ "" → Kept db vc.groupId (opened db vc.groupId width).rowNum
        (opened db vc.groupId width).rowNum f :=
      fun f => (h.opened_text_iff hk hplain htwo).mp (congrFun heq f)
    refine ⟨fun c hc hne => ?_, fun k h0 hne => ?_⟩
    · exact (h.nonBlank_iff hk hplain).mp (kept_first_iff.mp (hkept _ hne) hc)
    · have hpos : 0 < k.val := Nat.pos_of_ne_zero fun h' => h0 (Fin.ext h')
      have hrow := (kept_of_row rfl hpos).mp (hkept _ hne)
      have hlt : k.val < (opened db vc.groupId width).rowNum := by omega
      exact (h.lt_opened_rowNum_iff hk hplain h0).mp hlt
  · intro hreopens
    funext f
    rw [h.opened_text_iff hk hplain htwo]
    intro hne
    rcases row_cases f with ⟨k, hpos, hk'⟩ | hzero
    · obtain ⟨j, rfl, hf⟩ := Field.row_eq_some_iff.mp hk'
      have h0 : j ≠ 0 := by
        rintro rfl
        exact Nat.lt_irrefl 0 hpos
      refine (kept_of_row hk' hpos).mpr (.inl ((h.lt_opened_rowNum_iff hk hplain h0).mpr ?_))
      by_cases hcol : f = .contentTF 0 j
      · subst hcol
        exact hreopens.firstColumn j h0 hne
      · refine ⟨j, le_rfl, f, hk', fun i heq => ?_, hne⟩
        rw [heq] at hk' hcol
        obtain rfl : i = j := Fin.ext (Option.some_inj.mp hk')
        exact hcol rfl
    · cases f with
      | groupNameTF => trivial
      | nameTF c => trivial
      | memoTV c => trivial
      | itemTF k => exact .inl (Fin.ext (hzero k rfl))
      | contentTF c k =>
        obtain rfl : k = 0 := Fin.ext (hzero k rfl)
        exact kept_first_iff.mpr fun hc =>
          (h.nonBlank_iff hk hplain).mpr (hreopens.firstRow c hc hne)

end Holds

end CompareMainVC

/-! ### Saved and reopened -/

open CompareMainVC (opened)

/-- From `s` the editor on `g` is saved, left, and the row of `g` in the
rebuilt list is opened; in `u` this is done, and nothing failed. -/
def Reopened (g : ℤ) (s u : App) : Prop :=
  ∃ now writes reads row select reads', app.Run s ([.saveBtnDidTap now writes reads] ++
      [.backBtnDidTap true, .didSelectRowAt row select reads']) u ∧
    (Event.saveBtnDidTap now writes reads).succeeds ∧ select.succeed ∧ reads'.succeed ∧
    (u.list.viewDidLoad true u.db).groupIdList[row]? = some g

section Reopened

variable {s t u : App} {vc : CompareMainVC} {g : ℤ} {row : ℕ} {select reads : Reads}

theorem Reopened.reachable (h : Reopened g s u) (hs : Reachable s) : Reachable u := by
  obtain ⟨now, writes, reads, row, select, reads', hrun, -⟩ := h
  obtain ⟨es, hes⟩ := hs
  exact ⟨_, hes.append hrun⟩

/-- Opening a row whose reads succeed. -/
theorem App.Inv.select_eq (hinv : s.Inv) (hg : s.list.groupIdList[row]? = some g)
    (hselect : select.succeed) (hreads : reads.succeed)
    (he : app.enabled s (.didSelectRowAt row select reads))
    (hs : app.step s (.didSelectRowAt row select reads) = some t) :
    t = s.showing (opened s.db g s.width) := by
  cases hinv.handled he hs with
  | @select _ g' _ _ hed hrow hg' hreads' =>
    obtain rfl : g = g' := Option.some_inj.mp (hg.symm.trans hg')
    have hnum : App.selectedRowNum s.db g select =
        ViewController.idNum (s.db.itemsOf g) (s.db.contentsOf g) := if_pos hselect
    obtain rfl : reads = .ok := by
      cases reads with
      | mk items contents =>
        obtain ⟨hitems, hcontents⟩ := hreads
        obtain rfl : items = true := hitems
        obtain rfl : contents = true := hcontents
        rfl
    rw [hnum]
    rfl

/-- What is on screen after a save and a new opening, and what is stored. -/
theorem Reopened.spec (h : Reopened vc.groupId s u) (hs : Reachable s)
    (hvc : s.editor = some vc) :
    u.editor = some (opened u.db vc.groupId s.width) ∧ u.width = s.width ∧
      CompareMainVC.Holds u.db vc := by
  obtain ⟨now, writes, reads, row, select, reads', hrun, hsave, hselect, hreads, hrow⟩ := h
  obtain ⟨t, ht, hrest⟩ := EventSystem.run_append_iff.mp hrun
  obtain ⟨he, hstep⟩ := EventSystem.run_single_iff.mp ht
  obtain ⟨he', t', hstep', hlast⟩ := EventSystem.run_cons_iff.mp hrest
  obtain ⟨he'', hstep''⟩ := EventSystem.run_single_iff.mp hlast
  have hb := hs.inv.editor vc hvc
  have htinv := hs.inv.step he hstep
  have htinv' := htinv.step he' hstep'
  -- the list is rebuilt from the store that the save left
  have hback : t' = { t with editor := none, list := t.list.viewDidLoad true t.db } :=
    (Option.some_inj.mp hstep').symm
  subst hback
  have hu : u.db = t.db := by
    cases htinv'.handled he'' hstep'' with
    | select => rfl
  rw [hu] at hrow ⊢
  obtain rfl := htinv'.select_eq hrow hselect hreads he'' hstep''
  cases hs.inv.handled he hstep with
  | @save vc' _ _ _ outcome hed hdata =>
    obtain rfl : vc = vc' := Option.some_inj.mp (hvc.symm.trans hed)
    have hw := CompareMainVC.saveData_written hs.inv.keys hb.loaded hb.two_le_colNum
      hb.colNum_le hsave.1 hsave.2.1 hdata
    refine ⟨rfl, rfl, ?_, ?_, fun f hf => hw.stored hf⟩
    · show (Throwing.store outcome).itemsOf vc.groupId ≠ []
      rw [hw.items]
      exact List.cons_ne_nil _ _
    · show ((Throwing.store outcome).contentsOf vc.groupId).length = vc.colNum
      rw [hw.length]
      exact max_eq_right hb.stored_le

/-- **Saved and reopened.**  A comparison that is saved, left and opened again,
with nothing failing, has the columns it had, and the rows up to the last one
with text outside the first column; each of its texts is the one it had or is
blank, and all are what they were exactly when no first cell was under a blank
first heading and no cell of the first column stood alone below all others. -/
theorem saved_and_reopened (hs : Reachable s) (hvc : s.editor = some vc)
    (h : Reopened vc.groupId s u) :
    ∃ vc', u.editor = some vc' ∧ vc'.groupId = vc.groupId ∧ vc'.colNum = vc.colNum ∧
      (∀ k : Fin 7, k ≠ 0 → (k.val < vc'.rowNum ↔ ∃ j, k ≤ j ∧ vc.RowHeld j)) ∧
      (∀ f, vc'.texts f = vc.texts f ∨ vc'.texts f = "") ∧
      (vc'.texts = vc.texts ↔ vc.Reopens) := by
  obtain ⟨hu, -, hholds⟩ := h.spec hs hvc
  have hk := (h.reachable hs).inv.keys
  have htwo := (hs.inv.editor vc hvc).two_le_colNum
  have hplain := hs.plain vc hvc
  refine ⟨_, hu, rfl, hholds.opened_colNum htwo,
    fun k h0 => hholds.lt_opened_rowNum_iff hk hplain h0, fun f => ?_,
    hholds.opened_texts_iff hk hplain htwo s.width⟩
  have htext := hholds.opened_text hk hplain htwo s.width f
  by_cases hkept : Kept u.db vc.groupId (opened u.db vc.groupId s.width).rowNum
      (opened u.db vc.groupId s.width).rowNum f
  · exact .inl (htext.1 hkept)
  · exact .inr (htext.2 hkept)

/-! ### Opened, saved and reopened -/

end Reopened

/-- A save, the way back, and the first row. -/
def savedAndReopened : List Event :=
  [.saveBtnDidTap "" .ok .ok] ++ [.backBtnDidTap true, .didSelectRowAt 0 .ok .ok]

theorem unsavedFifthRow_reopened_isSome :
    (app.exec App.init (unsavedFifthRow ++ savedAndReopened)).isSome = true := by decide +kernel

theorem saved_and_reopened_unsavedFifthRow : ∃ s u vc vc', app.Run App.init unsavedFifthRow s ∧
    s.editor = some vc ∧ app.Run s savedAndReopened u ∧ u.editor = some vc' ∧
    vc'.groupId = vc.groupId ∧ vc'.colNum = vc.colNum ∧
    (∀ k : Fin 7, k ≠ 0 → (k.val < vc'.rowNum ↔ ∃ j, k ≤ j ∧ vc.RowHeld j)) ∧
    (∀ f, vc'.texts f = vc.texts f ∨ vc'.texts f = "") ∧
    (vc'.texts = vc.texts ↔ vc.Reopens) := by
  have hrun := EventSystem.run_get_exec unsavedFifthRow_isSome
  obtain ⟨s, hs, hu⟩ :=
    EventSystem.run_append_iff.mp (EventSystem.run_get_exec unsavedFifthRow_reopened_isSome)
  obtain rfl := hs.det hrun
  have hed : ((app.exec App.init unsavedFifthRow).get unsavedFifthRow_isSome).editor.map
      (·.groupId) = some 1 := by decide
  obtain ⟨vc, hvc, hg⟩ := Option.map_eq_some_iff.mp hed
  have hrow : (((app.exec App.init (unsavedFifthRow ++ savedAndReopened)).get
      unsavedFifthRow_reopened_isSome).db.items.map (·.groupId))[0]? = some vc.groupId := by
    rw [hg]
    decide +kernel
  have hok : Reads.ok.succeed := ⟨rfl, rfl⟩
  obtain ⟨vc', hvc', hreopened⟩ := saved_and_reopened ⟨_, hrun⟩ hvc
    ⟨"", .ok, .ok, 0, .ok, .ok, hu, ⟨rfl, fun _ => rfl, hok⟩, hok, hok, by
      rwa [ViewController.viewDidLoad_true]⟩
  exact ⟨_, _, vc, vc', hrun, hvc, hu, hvc', hreopened⟩

end HikakuKun
