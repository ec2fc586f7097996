/-
What a first load puts into a new editor.

A new editor has blank fields, and its first `viewDidLoad` reads the rows below
the row count that the list screen hands it.  When the list screen could not
read the group, this count is 1, and a save writes all seven rows.

* `faithful_load_iff` — exactly when the fields of a new editor are what the
  store holds;
* `failed_open_keeps_iff` — exactly when a save, in the editor presented after
  a failed read, keeps the stored values.
-/
import HikakuKun.Session

namespace HikakuKun

open CompareMainVC (fresh)

/-- The first two cells of row 1 are blank, or its heading is not. -/
def Realm.FirstCellsLoad (db : Realm) (g : ℤ) : Prop :=
  ∀ c : Fin 5, c.val < 2 → db.NonBlank g (.contentTF c 0) → db.NonBlank g (.itemTF 0)

/-- Outside the later rows, text is kept. -/
theorem Realm.FirstCellsLoad.kept {db : Realm} {g : ℤ} {r₀ r : ℕ} {f : Field}
    (h : db.FirstCellsLoad g) (hrow : ∀ k, f.row = some k → k = 0) (hblank : db.NonBlank g f) :
    Kept db g r₀ r f := by
  cases f with
  | groupNameTF => trivial
  | nameTF c => trivial
  | memoTV c => trivial
  | itemTF k => exact .inl (Fin.ext (hrow k rfl))
  | contentTF c k =>
    obtain rfl : k = 0 := Fin.ext (hrow k rfl)
    exact kept_first_iff.mpr fun hc => h c hc hblank

/-! ### The first load -/

/-- **Faithful load.**  A new editor on a stored group with two or more columns
shows as many columns as are stored; each of its fields is what is stored exactly
when no cell of the first two columns is under a blank first heading. -/
theorem faithful_load_iff {s : App} (hs : Reachable s) {g : ℤ}
    (hn : 2 ≤ (s.db.contentsOf g).length) {r : ℕ} (hr : 1 ≤ r ∧ r ≤ 7) {reads : Reads}
    (hreads : reads.succeed) (width : ℚ) :
    ∃ vc, (fresh g r).loadView.viewDidLoad reads width s.db = some vc ∧ vc.groupId = g ∧
      vc.rowNum = r ∧
      ((vc.colNum = (s.db.contentsOf g).length ∧
        ∀ f, vc.visible f → s.db.stored g f = some (vc.texts f)) ↔ s.db.FirstCellsLoad g) := by
  have hk := hs.inv.keys
  have hitems : s.db.itemsOf g ≠ [] :=
    (hk g).noOrphan (List.ne_nil_of_length_pos (by omega))
  have hload := App.viewDidLoad_fresh hk g r reads width
  rw [if_pos ⟨hreads.1, hreads.2⟩] at hload
  -- the new editor starts with two columns
  have hcol : (fresh g r).loadedColNum reads s.db = (s.db.contentsOf g).length := by
    rw [CompareMainVC.loadedColNum, if_pos ⟨hreads, hn⟩]
    exact max_eq_right hn
  refine ⟨_, hload, rfl, rfl, ?_⟩
  have hfield : ∀ f, ((fresh g r).redisplayed reads width s.db).visible f →
      (s.db.stored g f = some (((fresh g r).redisplayed reads width s.db).texts f) ↔
        (s.db.NonBlank g f → Kept s.db g r r f)) := by
    intro f hf
    have hwithin : f.Within ((fresh g r).loadedColNum reads s.db) :=
      CompareMainVC.within_of_visible hf
    obtain ⟨v, hv⟩ := (hk g).exists_stored hitems (by rwa [hcol] at hwithin)
    rw [hv, Option.some_inj, eq_comm]
    exact (keptText_reloaded hv hwithin).eq_iff hv
  constructor
  · rintro ⟨-, hfields⟩ c hc hblank
    have hcell : ((fresh g r).redisplayed reads width s.db).visible (.contentTF c 0) := by
      refine ⟨?_, hr.1⟩
      show c.val < (fresh g r).loadedColNum reads s.db
      omega
    exact kept_first_iff.mp ((hfield _ hcell).mp (hfields _ hcell) hblank) hc
  · intro h
    refine ⟨hcol, ?_⟩
    intro f hf
    rw [hfield f hf]
    intro hblank
    rcases row_cases f with ⟨k, hpos, hrow⟩ | hzero
    -- a row in view is read
    · have hlt : k < r := CompareMainVC.lt_rowNum_of_visible hf hrow
      exact (kept_of_row hrow hpos).mpr (.inl hlt)
    · exact h.kept hzero hblank

/-- A saved comparison with a first cell and no heading over it. -/
def cellWithoutHeading : List Event :=
  [.addNewHikakuBtnDidTap true .ok, .edit (.contentTF 0 0) "a", .saveBtnDidTap "" .ok .ok,
    .backBtnDidTap true]

theorem cellWithoutHeading_isSome : (app.exec App.init cellWithoutHeading).isSome = true := by
  decide

theorem faithful_load_iff_cellWithoutHeading : ∃ s vc, app.Run App.init cellWithoutHeading s ∧
    (fresh 1 1).loadView.viewDidLoad .ok 0 s.db = some vc ∧ vc.groupId = 1 ∧ vc.rowNum = 1 ∧
    ((vc.colNum = (s.db.contentsOf 1).length ∧
      ∀ f, vc.visible f → s.db.stored 1 f = some (vc.texts f)) ↔ s.db.FirstCellsLoad 1) := by
  have hrun := EventSystem.run_get_exec cellWithoutHeading_isSome
  have hn : 2 ≤ (((app.exec App.init cellWithoutHeading).get
      cellWithoutHeading_isSome).db.contentsOf 1).length := by
    decide
  obtain ⟨vc, hvc, hiff⟩ :=
    faithful_load_iff ⟨_, hrun⟩ hn ⟨le_rfl, by omega⟩ (show Reads.ok.succeed from ⟨rfl, rfl⟩) 0
  exact ⟨_, vc, hrun, hvc, hiff⟩

/-- The cell is stored, and the editor shows it blank. -/
theorem cellWithoutHeading_hidden : ∃ s vc, app.Run App.init cellWithoutHeading s ∧
    2 ≤ (s.db.contentsOf 1).length ∧
    (fresh 1 1).loadView.viewDidLoad .ok 0 s.db = some vc ∧ vc.visible (.contentTF 0 0) ∧
    s.db.stored 1 (.contentTF 0 0) = some "a" ∧ vc.texts (.contentTF 0 0) = "" := by
  have hshown : ((fresh 1 1).loadView.viewDidLoad .ok 0 ((app.exec App.init cellWithoutHeading).get
      cellWithoutHeading_isSome).db).map
        (fun vc => (decide (vc.visible (.contentTF 0 0)), vc.texts (.contentTF 0 0))) =
      some (true, "") := by
    decide +kernel
  obtain ⟨vc, hvc, htext⟩ := Option.map_eq_some_iff.mp hshown
  obtain ⟨hvisible, htext⟩ := Prod.mk.inj htext
  exact ⟨_, vc, EventSystem.run_get_exec cellWithoutHeading_isSome, by decide, hvc,
    of_decide_eq_true hvisible, by decide +kernel, htext⟩

/-! ### A failed read on opening -/

/-- The condition under which a save after a failed read keeps what is stored. -/
structure Realm.FailedOpenKeeps (db : Realm) (g : ℤ) : Prop where
  firstRow : db.FirstCellsLoad g
  /-- Rows 2 to 7, which the editor does not show, are blank. -/
  laterRows : ∀ f k, f.row = some k → 0 < k → ¬ db.NonBlank g f

/-- **A failed read on opening.**  When a read of the list screen throws, an
editor is presented all the same, over an alert, and assumed to appear
(`App.present`); a save in it that ends, with no edit made, keeps every stored value
exactly when there is nothing below row 1 and no first cell under a blank first
heading.  With fewer than two columns stored a save traps, and there is no state
after it. -/
theorem failed_open_keeps_iff {s : App} (hs : Reachable s) {row : ℕ} {g : ℤ}
    {select reads reads' : Reads} {now : String} {writes : Writes}
    (he : app.enabled s (.didSelectRowAt row select reads))
    (hg : s.list.groupIdList[row]? = some g) (hselect : ¬ select.succeed) (hreads : reads.succeed)
    (hsave : (Event.saveBtnDidTap now writes reads').succeeds) :
    ∃ u, app.Run s [.didSelectRowAt row select reads] u ∧
      ((s.db.itemsOf g ≠ [] → 2 ≤ (s.db.contentsOf g).length) →
        ∃ t, app.Run u [.saveBtnDidTap now writes reads'] t) ∧
      ∀ t, app.Run u [.saveBtnDidTap now writes reads'] t →
        ((∀ f v, s.db.stored g f = some v → t.db.stored g f = some v) ↔
          s.db.FailedOpenKeeps g) := by
  have hinv := hs.inv
  have hstep := @App.didSelectRowAt_eq _ hinv _ _ hg select reads
  -- the row count is the one the editor was made with
  have hone : App.selectedRowNum s.db g select = 1 := if_neg hselect
  rw [if_pos ⟨hreads.1, hreads.2⟩, hone] at hstep
  have hopened : InSession s.db g _ (fun _ => True) _ _ := inSession_of_select hinv hg he hstep
  rw [hone] at hopened
  have huinv := hinv.step he hstep
  refine ⟨_, EventSystem.run_single_iff.mpr ⟨he, hstep⟩, ?_, ?_⟩
  · intro htwo
    obtain ⟨outcome, hsaved⟩ := huinv.exists_saveData rfl htwo now writes
    exact ⟨_, huinv.run_save rfl hsaved reads'⟩
  · intro t ht
    obtain ⟨he', hstep'⟩ := EventSystem.run_single_iff.mp ht
    have hkeeps := forall_stored_iff (hopened.save huinv hsave he' hstep')
    simp only [true_implies] at hkeeps
    rw [hkeeps]
    constructor
    · intro hkept
      refine ⟨?_, ?_⟩
      · intro c hc hblank
        exact kept_first_iff.mp (hkept _ hblank) hc
      · intro f k hrow hpos hblank
        have hlater := (kept_of_row hrow hpos).mp (hkept f hblank)
        omega
    · intro h f hblank
      rcases row_cases f with ⟨k, hpos, hrow⟩ | hzero
      · exact absurd hblank (h.laterRows f k hrow hpos)
      · exact h.firstRow.kept hzero hblank

/-- A saved comparison with a heading in its second row. -/
def secondHeading : List Event :=
  [.addNewHikakuBtnDidTap true .ok, .addNewItemBtnDidTap .ok, .edit (.itemTF 1) "a",
    .saveBtnDidTap "" .ok .ok, .backBtnDidTap true]

theorem secondHeading_isSome : (app.exec App.init secondHeading).isSome = true := by decide

theorem failed_open_keeps_iff_secondHeading : ∃ s u t, app.Run App.init secondHeading s ∧
    app.Run s [.didSelectRowAt 0 ⟨false, true⟩ .ok] u ∧ app.Run u [.saveBtnDidTap "" .ok .ok] t ∧
    ((∀ f v, s.db.stored 1 f = some v → t.db.stored 1 f = some v) ↔ s.db.FailedOpenKeeps 1) := by
  have hrun := EventSystem.run_get_exec secondHeading_isSome
  have he : app.enabled ((app.exec App.init secondHeading).get secondHeading_isSome)
      (.didSelectRowAt 0 ⟨false, true⟩ .ok) := by
    decide
  have hfails : ¬ Reads.succeed ⟨false, true⟩ := fun h => Bool.noConfusion h.1
  have hok : Reads.ok.succeed := ⟨rfl, rfl⟩
  obtain ⟨u, hu, hsaves, hiff⟩ := @failed_open_keeps_iff _ ⟨_, hrun⟩ 0 1 _ _ .ok "" .ok he rfl
    hfails hok ⟨rfl, fun _ => rfl, hok⟩
  obtain ⟨t, ht⟩ := hsaves fun _ => by decide
  exact ⟨_, u, t, hrun, hu, ht, hiff t ht⟩

/-- It is opened after a failed read and saved, untouched. -/
def failedOpen : List Event :=
  [.didSelectRowAt 0 ⟨false, true⟩ .ok] ++ [.saveBtnDidTap "" .ok .ok]

theorem failedOpen_isSome : (app.exec App.init (secondHeading ++ failedOpen)).isSome = true := by
  decide +kernel

/-- The heading is gone. -/
theorem secondHeading_lost : ∃ s u t, app.Run App.init secondHeading s ∧
    s.list.groupIdList[0]? = some 1 ∧ app.Run s [.didSelectRowAt 0 ⟨false, true⟩ .ok] u ∧
    app.Run u [.saveBtnDidTap "" .ok .ok] t ∧
    s.db.stored 1 (.itemTF 1) = some "a" ∧ t.db.stored 1 (.itemTF 1) = some "" := by
  obtain ⟨s, hs, hrest⟩ :=
    EventSystem.run_append_iff.mp (EventSystem.run_get_exec failedOpen_isSome)
  obtain ⟨u, hu, ht⟩ := EventSystem.run_append_iff.mp hrest
  obtain rfl := hs.det (EventSystem.run_get_exec secondHeading_isSome)
  exact ⟨_, u, _, hs, rfl, hu, ht, by decide +kernel, by decide +kernel⟩

end HikakuKun
