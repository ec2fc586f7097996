/-
What the redisplay after a save shows.

The save button runs `viewDidLoad` again whether or not the save threw, and
without the backup that a + tap makes.

* `save_invisible` — after a save that succeeds the fields are as they were and
  agree with the store;
* `reloaded_eq_iff` — when `viewDidLoad` leaves the text of a visible field;
* `failed_save_keeps_iff` — exactly when a save that fails keeps every visible
  field.
-/
import HikakuKun.Failures
import HikakuKun.FormRefinement

namespace HikakuKun

/-! ### Successful saves -/

/-- **Successful saves.**  Along runs whose Realm operations succeed, a save
whose open and writes succeed leaves the numbers of columns and rows and every
visible field as they were, and every visible field is what the store holds. -/
theorem save_invisible {es : List Event} {s : App} (hrun : app.Run App.init es s)
    (hok : ∀ e ∈ es, e.succeeds) {vc : CompareMainVC} (hed : s.editor = some vc) {now : String}
    {writes : Writes} (reads : Reads) (hopens : writes.opens = true)
    (hwrites : ∀ i, writes.write i = true) :
    ∃ t vc', app.Run s [.saveBtnDidTap now writes reads] t ∧ t.editor = some vc' ∧
      vc'.groupId = vc.groupId ∧ vc'.colNum = vc.colNum ∧ vc'.rowNum = vc.rowNum ∧
      ∀ f, vc.visible f →
        vc'.texts f = vc.texts f ∧ t.db.stored vc.groupId f = some (vc'.texts f) := by
  obtain ⟨hinv, hm⟩ := refines_of_run hrun hok
  have hb := hinv.editor vc hed
  -- two columns are stored under every item, so the save does not trap
  obtain ⟨outcome, hsave⟩ := hinv.exists_saveData hed (hm vc.groupId).two_le now writes
  have hw := CompareMainVC.saveData_written hinv.keys hb.loaded hb.two_le_colNum hb.colNum_le
    hopens hwrites hsave
  obtain ⟨-, hb'⟩ := hb.saveData hinv.keys hsave
  refine ⟨_, _, hinv.run_save hed hsave reads, rfl, rfl,
    CompareMainVC.loadedColNum_eq hb'.stored_le, rfl, ?_⟩
  intro f hf
  have hstored := hw.stored (CompareMainVC.within_of_visible hf)
  have hkept : (vc.redisplayed reads s.width (Throwing.store outcome)).texts f = vc.texts f :=
    CompareMainVC.reloaded_eq_self hstored
  exact ⟨hkept, hstored.trans (congrArg some hkept.symm)⟩

/-- A new comparison with a first heading, not saved yet. -/
def unsavedHeading : List Event :=
  [.addNewHikakuBtnDidTap true .ok, .edit (.itemTF 0) "a"]

theorem unsavedHeading_isSome : (app.exec App.init unsavedHeading).isSome = true := by decide

theorem save_invisible_unsavedHeading : ∃ s vc t vc', app.Run App.init unsavedHeading s ∧
    s.editor = some vc ∧ app.Run s [.saveBtnDidTap "" .ok .ok] t ∧ t.editor = some vc' ∧
    vc'.groupId = vc.groupId ∧ vc'.colNum = vc.colNum ∧ vc'.rowNum = vc.rowNum ∧
    ∀ f, vc.visible f →
      vc'.texts f = vc.texts f ∧ t.db.stored vc.groupId f = some (vc'.texts f) := by
  have hrun := EventSystem.run_get_exec unsavedHeading_isSome
  have hok : ∀ e ∈ unsavedHeading, e.succeeds := by
    simp [unsavedHeading, Event.succeeds, Reads.succeed, Reads.ok]
  have hed : ((app.exec App.init unsavedHeading).get unsavedHeading_isSome).editor.isSome = true :=
    rfl
  obtain ⟨vc, hvc⟩ := Option.isSome_iff_exists.mp hed
  obtain ⟨t, vc', ht, hvc', hfields⟩ :=
    @save_invisible _ _ hrun hok vc hvc "" .ok .ok rfl fun _ => rfl
  exact ⟨_, vc, t, vc', hrun, hvc, ht, hvc', hfields⟩

/-! ### What a load keeps -/

namespace CompareMainVC

/-- Loading these stored values leaves the text of a visible field as it is.
A blank name 1 or 2 and a blank first heading are not assigned, nor are the
first two cells of row 1 under one; without a record a memo and the other cells
of row 1 are assigned nil. -/
def LoadKeeps (stored : Field → Option String) (t : Texts) : Field → Prop
  | .groupNameTF => ∀ v ∈ stored .groupNameTF, v = t .groupNameTF
  | .nameTF c => ∀ v ∈ stored (.nameTF c), v = t (.nameTF c) ∨ (c.val < 2 ∧ v = "")
  | .itemTF k => ∀ v ∈ stored (.itemTF k), v = t (.itemTF k) ∨ (k = 0 ∧ v = "")
  | .memoTV c => (stored (.memoTV c)).getD "" = t (.memoTV c)
  | .contentTF c k =>
    if k = 0 then
      (c.val < 2 → ∃ v ∈ stored (.itemTF 0), v ≠ "") →
        (stored (.contentTF c k)).getD "" = t (.contentTF c k)
    else ∀ v ∈ stored (.contentTF c k), v = t (.contentTF c k)

theorem getD_eq_iff {o : Option String} {b : String} : o.getD b = b ↔ ∀ v ∈ o, v = b := by
  cases o with
  | none => simp
  | some v => simp

theorem getD_filter_eq_iff {o : Option String} {b : String} :
    (o.filter (· ≠ "")).getD b = b ↔ ∀ v ∈ o, v = b ∨ v = "" := by
  cases o with
  | none => simp
  | some v =>
    rw [getD_filter_some]
    by_cases hv : v = "" <;> simp [hv]

/-- When `viewDidLoad` leaves the text of a visible field. -/
theorem reloaded_eq_iff {db : Realm} {g : ℤ} {vc : CompareMainVC} {t : Texts} {f : Field}
    (hf : vc.visible f) :
    reloaded db g vc.colNum vc.rowNum t f = t f ↔ LoadKeeps (db.stored g) t f := by
  cases f with
  | groupNameTF => exact getD_eq_iff
  | nameTF c =>
    have hc : c.val < vc.colNum := hf
    rw [reloaded, LoadKeeps]
    by_cases h2 : c.val < 2
    · rw [if_pos h2, getD_filter_eq_iff]
      simp only [h2, true_and]
    · rw [if_neg h2, if_pos hc, getD_eq_iff]
      simp only [h2, false_and, or_false]
  | itemTF k =>
    have hk : k.val < vc.rowNum := hf
    rw [reloaded, LoadKeeps]
    by_cases h0 : k = 0
    · rw [if_pos h0, getD_filter_eq_iff]
      simp only [h0, true_and]
    · rw [if_neg h0, if_pos hk, getD_eq_iff]
      simp only [h0, false_and, or_false]
  | memoTV c =>
    have hc : c.val < vc.colNum := hf
    rw [reloaded, if_pos hc, LoadKeeps]
  | contentTF c k =>
    have hc : c.val < vc.colNum := hf.1
    rw [reloaded, LoadKeeps]
    by_cases h0 : k = 0
    · rw [if_pos h0, if_pos h0]
      by_cases h2 : c.val < 2
      · rw [if_pos h2]
        by_cases hheading : ∃ v ∈ db.stored g (.itemTF 0), v ≠ ""
        · rw [if_pos (isSome_filter_ne_iff.mpr hheading)]
          exact ⟨fun h _ => h, fun h => h fun _ => hheading⟩
        · rw [if_neg fun h => hheading (isSome_filter_ne_iff.mp h)]
          exact ⟨fun _ h => absurd (h h2) hheading, fun _ => rfl⟩
      · rw [if_neg h2, if_pos hc]
        exact ⟨fun h _ => h, fun h => h fun hlt => absurd hlt h2⟩
    · rw [if_neg h0, if_neg h0, if_pos hf.2, getD_eq_iff]

theorem loadKeeps_of_stored {stored : Field → Option String} {t : Texts} {f : Field}
    (h : stored f = some (t f)) : LoadKeeps stored t f := by
  have hself : ∀ v ∈ stored f, v = t f := by
    intro v hv
    rw [h] at hv
    exact (Option.some_inj.mp hv).symm
  cases f with
  | groupNameTF => exact hself
  | nameTF c => exact fun v hv => .inl (hself v hv)
  | itemTF k => exact fun v hv => .inl (hself v hv)
  | memoTV c =>
    rw [LoadKeeps, h]
    rfl
  | contentTF c k =>
    rw [LoadKeeps]
    split
    case isTrue h0 =>
      intro _
      rw [h]
      rfl
    case isFalse h0 => exact hself

end CompareMainVC

/-! ### Failed saves -/

namespace Writes

/-- The item transaction of an insert commits. -/
def CommitsItem (writes : Writes) : Prop := writes.opens = true ∧ writes.write 0 = true

/-- The transaction of column `c` of an insert commits. -/
def CommitsColumn (writes : Writes) (c : ℕ) : Prop :=
  writes.CommitsItem ∧ ∀ i ≤ c, writes.write (i + 1) = true

/-- Before the first column that fails, every column commits. -/
theorem commitsColumn_iff {writes : Writes} {j c : ℕ} (hitem : writes.CommitsItem)
    (hbefore : ∀ i < j, writes.write (i + 1) = true) (hfail : writes.write (j + 1) = false) :
    writes.CommitsColumn c ↔ c < j := by
  constructor
  · rintro ⟨-, hall⟩
    by_contra hle
    rw [hall j (by omega)] at hfail
    cases hfail
  · intro hlt
    exact ⟨hitem, fun i hi => hbefore i (by omega)⟩

end Writes

namespace CompareMainVC

variable {vc : CompareMainVC} {now : String} {writes : Writes} {db db' : Realm}

/-- The condition under which a save that fails keeps every visible field. -/
structure FailedSaveKeeps (vc : CompareMainVC) (writes : Writes) (db : Realm) : Prop where
  /-- An update has written nothing: no visible field differs from the stored
  value that would be loaded into it. -/
  update : db.itemsOf vc.groupId ≠ [] →
    ∀ f, vc.visible f → LoadKeeps (db.stored vc.groupId) vc.texts f
  /-- A column that an insert has not written has a blank memo and a blank first
  cell, or this cell is one of the two that a stored heading must precede. -/
  insert : db.itemsOf vc.groupId = [] → ∀ c : Fin 5, c.val < vc.colNum →
    ¬ writes.CommitsColumn c → vc.texts (.memoTV c) = "" ∧
      (vc.texts (.contentTF c 0) = "" ∨
        (c.val < 2 ∧ (¬ writes.CommitsItem ∨ vc.texts (.itemTF 0) = "")))

/-- What a load keeps when the store has the form up to column `j`, or nothing
of it. -/
theorem forall_loadKeeps_iff {stored : Field → Option String} {p : Prop} {j : ℕ}
    (hrow : 1 ≤ vc.rowNum) (hsome : ∀ f : Field, p → f.Within j → stored f = some (vc.texts f))
    (hnone : ∀ f : Field, ¬ (p ∧ f.Within j) → stored f = none) :
    (∀ f, vc.visible f → LoadKeeps stored vc.texts f) ↔
      ∀ c : Fin 5, c.val < vc.colNum → ¬ (p ∧ c.val < j) → vc.texts (.memoTV c) = "" ∧
        (vc.texts (.contentTF c 0) = "" ∨ (c.val < 2 ∧ (¬ p ∨ vc.texts (.itemTF 0) = ""))) := by
  constructor
  · intro h c hc hnot
    have hmemo := h (.memoTV c) hc
    have hcell := h (.contentTF c 0) ⟨hc, hrow⟩
    rw [LoadKeeps, hnone (.memoTV c) hnot, Option.getD_none] at hmemo
    rw [LoadKeeps, if_pos rfl, hnone (.contentTF c 0) hnot, Option.getD_none] at hcell
    refine ⟨hmemo.symm, ?_⟩
    by_contra hlost
    push Not at hlost
    obtain ⟨hne, hguard⟩ := hlost
    -- the guard of the first two cells is open, so the cell was assigned nil
    refine hne (hcell fun h2 => ?_).symm
    obtain ⟨hp, hheading⟩ := hguard h2
    exact ⟨_, hsome (.itemTF 0) hp trivial, hheading⟩
  · intro h f hf
    by_cases hw : p ∧ f.Within j
    · exact loadKeeps_of_stored (hsome f hw.1 hw.2)
    have hstored := hnone f hw
    have hvacuous : ∀ {q : String → Prop}, ∀ v ∈ stored f, q v := by
      intro q v hv
      rw [hstored] at hv
      cases hv
    cases f with
    | groupNameTF => exact hvacuous
    | nameTF c => exact hvacuous
    | itemTF k => exact hvacuous
    | memoTV c =>
      rw [LoadKeeps, hstored]
      exact (h c hf hw).1.symm
    | contentTF c k =>
      rw [LoadKeeps]
      split
      case isFalse h0 => exact hvacuous
      case isTrue h0 =>
        subst h0
        intro hguard
        rw [hstored]
        rcases (h c hf.1 hw).2 with hblank | ⟨h2, hclosed⟩
        · exact hblank.symm
        · obtain ⟨v, hv, hne⟩ := hguard h2
          exfalso
          by_cases hp : p
          · rw [hsome (.itemTF 0) hp trivial, hclosed.resolve_left (not_not_intro hp)] at hv
            exact hne (Option.some_inj.mp hv).symm
          · rw [hnone (.itemTF 0) fun h => hp h.1] at hv
            cases hv

/-- A failed insert has written the form up to some column, or nothing. -/
theorem loadKeeps_of_insert_iff (hb : vc.Bounded db) (hk : db.Keys)
    (hitems : db.itemsOf vc.groupId = []) (h : vc.saveData now writes db = some (.error db')) :
    (∀ f, vc.visible f → LoadKeeps (db'.stored vc.groupId) vc.texts f) ↔
      vc.FailedSaveKeeps writes db := by
  have hcontents := (hk vc.groupId).contentsOf_eq_nil hitems
  have hinsert : vc.FailedSaveKeeps writes db ↔ ∀ c : Fin 5, c.val < vc.colNum →
      ¬ writes.CommitsColumn c → vc.texts (.memoTV c) = "" ∧
        (vc.texts (.contentTF c 0) = "" ∨
          (c.val < 2 ∧ (¬ writes.CommitsItem ∨ vc.texts (.itemTF 0) = ""))) :=
    ⟨fun hkeeps => hkeeps.insert hitems,
      fun hkeeps => ⟨fun hne => absurd hitems hne, fun _ => hkeeps⟩⟩
  rw [hinsert]
  rcases saveData_cases now writes hk hb.loaded hb.two_le_colNum hb.colNum_le with
    ⟨hne, -⟩ | ⟨hfail, heq⟩ | ⟨db'', -, heq⟩ |
    ⟨-, hopens, hitem, j, hj, hbefore, hcol, db'', hw, heq⟩
  · exact absurd hitems hne
  -- the item transaction failed, and the group is not stored
  · rw [heq] at h
    cases h
    have hitem : ¬ writes.CommitsItem := by
      rintro ⟨hopens, hwrite⟩
      rw [hopens, hwrite] at hfail
      exact hfail.elim Bool.noConfusion Bool.noConfusion
    have hcolumn : ∀ c : Fin 5, writes.CommitsColumn c ↔ writes.CommitsItem ∧ c.val < 0 :=
      fun c => ⟨fun hc => absurd hc.1 hitem, fun hc => absurd hc.1 hitem⟩
    simp only [hcolumn]
    refine forall_loadKeeps_iff hb.one_le_rowNum (fun f hp => absurd hp hitem) fun f _ => ?_
    exact (hk vc.groupId).stored_eq_none hitems f
  · rw [heq] at h
    cases h
  -- the columns before `j` are stored
  · rw [heq] at h
    cases h
    have hcolumn : ∀ c : Fin 5, writes.CommitsColumn c ↔ writes.CommitsItem ∧ c.val < j := by
      intro c
      rw [Writes.commitsColumn_iff ⟨hopens, hitem⟩ hbefore hcol]
      exact (and_iff_right ⟨hopens, hitem⟩).symm
    simp only [hcolumn]
    refine forall_loadKeeps_iff hb.one_le_rowNum (fun f _ hf => hw.stored hf) fun f hnot => ?_
    rw [Option.eq_none_iff_forall_ne_some]
    intro v hv
    refine hnot ⟨⟨hopens, hitem⟩, ?_⟩
    have hwithin := Realm.within_of_stored hw.numbered hv
    rwa [hw.length, hcontents, List.length_nil, Nat.zero_max] at hwithin

/-- What the display after a failed save keeps. -/
theorem redisplayed_keeps_iff (hb : vc.Bounded db) (hk : db.Keys)
    (h : vc.saveData now writes db = some (.error db')) (reads : Reads) (width : ℚ) :
    (∀ f, vc.visible f → (vc.redisplayed reads width db').texts f = vc.texts f) ↔
      vc.FailedSaveKeeps writes db := by
  have hb' : vc.Bounded db' := (hb.saveData hk h).2
  have hload : (∀ f, vc.visible f → (vc.redisplayed reads width db').texts f = vc.texts f) ↔
      ∀ f, vc.visible f → LoadKeeps (db'.stored vc.groupId) vc.texts f := by
    refine forall_congr' fun f => forall_congr' fun hf => ?_
    rw [← reloaded_eq_iff hf]
    show reloaded _ _ (vc.loadedColNum reads db') _ _ _ = _ ↔ _
    rw [loadedColNum_eq hb'.stored_le]
  rw [hload]
  by_cases hitems : db.itemsOf vc.groupId = []
  · exact loadKeeps_of_insert_iff hb hk hitems h
  -- an update that throws has written nothing
  · obtain rfl : db' = db := update_atomic hb.loaded hitems h
    exact ⟨fun hkeeps => ⟨fun _ => hkeeps, fun hnil => absurd hnil hitems⟩,
      fun hkeeps => hkeeps.update hitems⟩

end CompareMainVC

/-- **Failed saves.**  A save that throws, followed by the display that a later
read of the store gives, keeps every visible field exactly when nothing in the
fields is newer than what is stored, or, for a new comparison, the columns not
written have a blank memo and a blank first cell. -/
theorem failed_save_keeps_iff {s : App} (hs : Reachable s) {vc : CompareMainVC}
    (hvc : s.editor = some vc) {now : String} {writes : Writes} {db' : Realm}
    (hfail : vc.saveData now writes s.db = some (.error db')) (reads : Reads) :
    ∃ t vc', app.Run s [.saveBtnDidTap now writes reads] t ∧ t.editor = some vc' ∧
      ((∀ f, vc.visible f → vc'.texts f = vc.texts f) ↔ vc.FailedSaveKeeps writes s.db) := by
  have hinv := hs.inv
  exact ⟨_, _, hinv.run_save hvc hfail reads, rfl,
    CompareMainVC.redisplayed_keeps_iff (hinv.editor vc hvc) hinv.keys hfail reads s.width⟩

/-- A new comparison with a first memo, not saved yet. -/
def unsavedMemo : List Event := [.addNewHikakuBtnDidTap true .ok, .edit (.memoTV 0) "a"]

theorem unsavedMemo_isSome : (app.exec App.init unsavedMemo).isSome = true := by decide

/-- The editor of `unsavedMemo`, whose save throws at the item. -/
theorem unsavedMemo_fails : ∃ s vc, app.Run App.init unsavedMemo s ∧ s.editor = some vc ∧
    vc.visible (.memoTV 0) ∧ vc.texts (.memoTV 0) = "a" ∧
    vc.saveData "" (.failingAt 0) s.db = some (.error s.db) := by
  have hrun := EventSystem.run_get_exec unsavedMemo_isSome
  have hmemo : ((app.exec App.init unsavedMemo).get unsavedMemo_isSome).editor.map
      (fun vc => (decide (vc.visible (.memoTV 0)), vc.texts (.memoTV 0))) = some (true, "a") := by
    decide
  have hsave : ((app.exec App.init unsavedMemo).get unsavedMemo_isSome).editor.bind
      (fun vc => vc.saveData "" (.failingAt 0)
        ((app.exec App.init unsavedMemo).get unsavedMemo_isSome).db) =
      some (.error ((app.exec App.init unsavedMemo).get unsavedMemo_isSome).db) := rfl
  obtain ⟨vc, hvc, htext⟩ := Option.map_eq_some_iff.mp hmemo
  obtain ⟨hvisible, htext⟩ := Prod.mk.inj htext
  rw [hvc, Option.bind_some] at hsave
  exact ⟨_, vc, hrun, hvc, of_decide_eq_true hvisible, htext, hsave⟩

theorem failed_save_keeps_iff_unsavedMemo : ∃ s vc t vc', app.Run App.init unsavedMemo s ∧
    s.editor = some vc ∧ app.Run s [.saveBtnDidTap "" (.failingAt 0) .ok] t ∧
    t.editor = some vc' ∧
    ((∀ f, vc.visible f → vc'.texts f = vc.texts f) ↔
      vc.FailedSaveKeeps (.failingAt 0) s.db) := by
  obtain ⟨s, vc, hrun, hvc, -, -, hsave⟩ := unsavedMemo_fails
  obtain ⟨t, vc', ht, hvc', hiff⟩ := failed_save_keeps_iff ⟨_, hrun⟩ hvc hsave .ok
  exact ⟨s, vc, t, vc', hrun, hvc, ht, hvc', hiff⟩

/-- The memo is gone. -/
theorem unsavedMemo_lost : ∃ s vc db' t vc', app.Run App.init unsavedMemo s ∧
    s.editor = some vc ∧ vc.saveData "" (.failingAt 0) s.db = some (.error db') ∧
    app.Run s [.saveBtnDidTap "" (.failingAt 0) .ok] t ∧ t.editor = some vc' ∧
    vc.visible (.memoTV 0) ∧ vc.texts (.memoTV 0) = "a" ∧ vc'.texts (.memoTV 0) = "" := by
  have hsaved : (app.exec App.init
      (unsavedMemo ++ [.saveBtnDidTap "" (.failingAt 0) .ok])).isSome = true := by decide
  have hafter : ((app.exec App.init
      (unsavedMemo ++ [.saveBtnDidTap "" (.failingAt 0) .ok])).bind App.editor).map
        (·.texts (.memoTV 0)) = some "" := by
    decide +kernel
  rw [← Option.some_get hsaved] at hafter
  obtain ⟨s, vc, hrun, hvc, hvisible, htext, hsave⟩ := unsavedMemo_fails
  obtain ⟨s', hs', ht⟩ := EventSystem.run_append_iff.mp (EventSystem.run_get_exec hsaved)
  obtain rfl := hs'.det hrun
  obtain ⟨vc', hvc', htext'⟩ := Option.map_eq_some_iff.mp hafter
  exact ⟨_, vc, _, _, vc', hrun, hvc, hsave, ht, hvc', hvisible, htext, htext'⟩

end HikakuKun
