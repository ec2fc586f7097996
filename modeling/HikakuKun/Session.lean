/-
What an editing session keeps.

A session opens a stored group from the list, edits and taps, and saves.  The
save writes all seven rows, also those that were never shown, so a stored value
survives only if it was read into its field.  The first load skips the rows
below the row count and, under a blank first heading, the first two cells; a
+ row tap reads rows 5 to 7 from the store when they appear, but rows 2 to 4 come
back from the backup, blank.

* `Kept` — the fields that hold their stored value when the editor shows `r`
  rows, of which it was opened with `r₀`; the other stored fields are blank;
* `InSession.run` — along a session the unedited fields are as `Kept` says;
* `session_keeps_iff` — exactly which sessions keep every unedited value.
-/
import HikakuKun.KeepInput
import HikakuKun.RowCount

namespace HikakuKun

namespace Event

/-- What can be done in an editor between its opening and the save. -/
def inSession : Event → Prop
  | edit _ _ | addNewNameBtnDidTap _ | addNewItemBtnDidTap _ | layoutSubviews _ => True
  | _ => False

def isAddItem : Event → Bool
  | addNewItemBtnDidTap _ => true
  | _ => false

end Event

/-- The number of + row taps. -/
def rowTaps (es : List Event) : ℕ := es.countP Event.isAddItem

/-- The user does not type into this field. -/
def Unedited (es : List Event) (f : Field) : Prop := ∀ text, Event.edit f text ∉ es

theorem Field.Within.mono {m n : ℕ} {f : Field} (h : f.Within m) (hmn : m ≤ n) : f.Within n := by
  cases f with
  | groupNameTF => trivial
  | itemTF k => trivial
  | nameTF c => exact Nat.lt_of_lt_of_le h hmn
  | contentTF c k => exact Nat.lt_of_lt_of_le h hmn
  | memoTV c => exact Nat.lt_of_lt_of_le h hmn

namespace Realm

/-- The field's stored value is not blank. -/
def NonBlank (db : Realm) (g : ℤ) (f : Field) : Prop := ∃ v, db.stored g f = some v ∧ v ≠ ""

/-- Row `k` is shown when the group is opened: it, or a row below it, holds
text outside the first column. -/
def RowShown (db : Realm) (g : ℤ) (k : Fin 7) : Prop := ∃ j, k ≤ j ∧ db.RowAsked g j

instance (db : Realm) (g : ℤ) (k : Fin 7) : Decidable (db.RowShown g k) :=
  inferInstanceAs (Decidable (∃ _, _))

/-- How many of the rows 2 to `k + 1` are not shown when the group is opened. -/
def hiddenRows (db : Realm) (g : ℤ) (k : Fin 7) : ℕ :=
  ((List.finRange 7).filter fun j => j ≠ 0 ∧ j ≤ k ∧ ¬ db.RowShown g j).length

end Realm

/-- Field `f` holds its stored value in an editor that was opened with `r₀` rows
and now shows `r`. -/
def Kept (db : Realm) (g : ℤ) (r₀ r : ℕ) : Field → Prop
  | .itemTF k => k = 0 ∨ k.val < r₀ ∨ (4 ≤ k.val ∧ k.val < r)
  | .contentTF c k =>
    if k = 0 then c.val < 2 → db.NonBlank g (.itemTF 0)
    else k.val < r₀ ∨ (4 ≤ k.val ∧ k.val < r)
  | _ => True

section Kept

variable {db : Realm} {g : ℤ} {r₀ r r' : ℕ} {f : Field} {v : String}

theorem kept_of_row {k : ℕ} (hf : f.row = some k) (hpos : 0 < k) :
    Kept db g r₀ r f ↔ k < r₀ ∨ (4 ≤ k ∧ k < r) := by
  obtain ⟨j, rfl, hj⟩ := Field.row_eq_some_iff.mp hf
  have hne : j ≠ 0 := by
    rintro rfl
    exact Nat.lt_irrefl 0 hpos
  rcases hj with rfl | ⟨c, rfl⟩
  · exact or_iff_right hne
  · rw [Kept, if_neg hne]

theorem kept_first_iff {c : Fin 5} :
    Kept db g r₀ r (.contentTF c 0) ↔ (c.val < 2 → db.NonBlank g (.itemTF 0)) := by
  rw [Kept, if_pos rfl]

/-- Outside the rows after the first, the number of rows does not matter. -/
theorem kept_congr (hf : ∀ k, f.row = some k → k = 0) :
    Kept db g r₀ r f ↔ Kept db g r₀ r' f := by
  cases f with
  | itemTF k =>
    have hk : k = 0 := Fin.ext (hf k rfl)
    exact ⟨fun _ => .inl hk, fun _ => .inl hk⟩
  | contentTF c k =>
    have hk : k = 0 := Fin.ext (hf k rfl)
    rw [Kept, Kept, if_pos hk, if_pos hk]
  | groupNameTF => exact Iff.rfl
  | nameTF c => exact Iff.rfl
  | memoTV c => exact Iff.rfl

/-- A field is in a row after the first, or `kept_congr` applies. -/
theorem row_cases (f : Field) : (∃ k, 0 < k ∧ f.row = some k) ∨ ∀ k, f.row = some k → k = 0 := by
  by_cases h : ∀ k, f.row = some k → k = 0
  · exact .inr h
  · push Not at h
    obtain ⟨k, hk, hne⟩ := h
    exact .inl ⟨k, Nat.pos_of_ne_zero hne, hk⟩

/-- The fields outside the kept ones are blank. -/
def KeptText (db : Realm) (g : ℤ) (r₀ r : ℕ) (f : Field) (v text : String) : Prop :=
  (Kept db g r₀ r f → text = v) ∧ (¬ Kept db g r₀ r f → text = "")

/-- A field shows its stored value unless this is text that is not kept. -/
theorem KeptText.eq_iff {text : String} (h : KeptText db g r₀ r f v text)
    (hf : db.stored g f = some v) : text = v ↔ (db.NonBlank g f → Kept db g r₀ r f) := by
  by_cases hkept : Kept db g r₀ r f
  · exact ⟨fun _ _ => hkept, fun _ => h.1 hkept⟩
  · rw [h.2 hkept]
    constructor
    · rintro rfl ⟨w, hw, hne⟩
      exact absurd (Option.some_inj.mp (hw.symm.trans hf)) hne
    · intro hblank
      by_contra hne
      exact hkept (hblank ⟨v, hf, Ne.symm hne⟩)

/-! ### Opening -/

/-- The first load, into blank fields. -/
theorem keptText_reloaded {colNum : ℕ} (hf : db.stored g f = some v) (hcol : f.Within colNum) :
    KeptText db g r₀ r₀ f v (CompareMainVC.reloaded db g colNum r₀ (fun _ => "") f) := by
  have hblank : ((some v).filter (· ≠ "")).getD "" = v := by
    rw [CompareMainVC.getD_filter_some]
    split
    case isTrue hv => exact hv.symm
    case isFalse hv => rfl
  rcases row_cases f with ⟨k, hpos, hk⟩ | hzero
  -- a later row is read from the store when it is shown
  · rw [CompareMainVC.reloaded_of_row hk hpos, hf, KeptText, kept_of_row hk hpos]
    constructor
    · intro hkept
      rw [if_pos (by omega), Option.getD_some]
    · intro hnot
      rw [if_neg (by omega)]
  cases f with
  | groupNameTF =>
    refine ⟨fun _ => ?_, fun h => absurd trivial h⟩
    rw [CompareMainVC.reloaded, hf, Option.getD_some]
  | nameTF c =>
    have hlt : c.val < colNum := hcol
    refine ⟨fun _ => ?_, fun h => absurd trivial h⟩
    rw [CompareMainVC.reloaded, hf, hblank, Option.getD_some, if_pos hlt, ite_self]
  | memoTV c =>
    have hlt : c.val < colNum := hcol
    refine ⟨fun _ => ?_, fun h => absurd trivial h⟩
    rw [CompareMainVC.reloaded, hf, Option.getD_some, if_pos hlt]
  | itemTF k =>
    obtain rfl : k = 0 := Fin.ext (hzero k rfl)
    refine ⟨fun _ => ?_, fun h => absurd (.inl rfl) h⟩
    rw [CompareMainVC.reloaded, if_pos rfl, hf, hblank]
  | contentTF c k =>
    obtain rfl : k = 0 := Fin.ext (hzero k rfl)
    have hheading : ((db.stored g (.itemTF 0)).filter (· ≠ "")).isSome = true ↔
        db.NonBlank g (.itemTF 0) := CompareMainVC.isSome_filter_ne_iff
    rw [CompareMainVC.reloaded, if_pos rfl, hf, Option.getD_some, KeptText, Kept, if_pos rfl]
    by_cases hc : c.val < 2
    · rw [if_pos hc]
      simp only [hc, forall_true_left]
      exact ⟨fun h => if_pos (hheading.mpr h), fun h => if_neg fun h' => h (hheading.mp h')⟩
    · have hlt : c.val < colNum := hcol
      rw [if_neg hc, if_pos hlt]
      exact ⟨fun _ => rfl, fun h => absurd (fun h' => absurd h' hc) h⟩

/-! ### Taps -/

/-- A + tap: what is kept is restored, or read from the store again; what is
not stays blank, unless it is one of the rows 5 to 7 and appears. -/
theorem keptText_tapped (vc : CompareMainVC) {reads : Reads} {width : ℚ} (hg : vc.groupId = g)
    (hf : db.stored g f = some v) (h : KeptText db g r₀ r f v (vc.texts f)) (h₀ : r₀ ≤ r)
    (hr : r ≤ vc.rowNum) (hr' : vc.rowNum ≤ r + 1) :
    KeptText db g r₀ vc.rowNum f v ((vc.tapped reads width db).texts f) := by
  subst hg
  have htext : (vc.tapped reads width db).texts f = if CompareMainVC.Restored vc.rowNum f
      then vc.texts f else CompareMainVC.reloaded db vc.groupId (vc.loadedColNum reads db)
        vc.rowNum vc.texts f := rfl
  rw [htext]
  rcases row_cases f with ⟨k, hpos, hk⟩ | hzero
  · rw [CompareMainVC.reloaded_of_row hk hpos, hf, Option.getD_some]
    rw [KeptText, kept_of_row hk hpos] at h ⊢
    simp only [CompareMainVC.restored_of_row hk]
    split
    case isTrue hrestored =>
      -- a restored row did not appear by this tap unless it is row 2, 3 or 4
      exact ⟨fun hkept => h.1 (by omega), fun hnot => h.2 (by omega)⟩
    case isFalse hlost =>
      split
      case isTrue hshown => exact ⟨fun _ => rfl, fun hnot => absurd (by omega) hnot⟩
      case isFalse hhidden =>
        exact ⟨fun hkept => absurd hkept (by omega), fun _ => h.2 (by omega)⟩
  -- the title, the names, the memos and row 1 are always restored
  · have hrestored : CompareMainVC.Restored vc.rowNum f := by
      cases hk : f.row with
      | none => exact CompareMainVC.restored_of_row_eq_none hk
      | some k =>
        rw [CompareMainVC.restored_of_row hk, hzero k hk]
        exact .inl (by decide)
    have hcongr : Kept db vc.groupId r₀ vc.rowNum f ↔ Kept db vc.groupId r₀ r f :=
      kept_congr hzero
    rw [if_pos hrestored, KeptText, hcongr]
    exact h

end Kept

/-! ### Sessions -/

/-- The store is `db`, and an editor on group `g` is in front that was opened
with `r₀` rows, shows `r`, and holds the stored values as `Kept` says in the
fields that are not edited. -/
structure InSession (db : Realm) (g : ℤ) (r₀ : ℕ) (unedited : Field → Prop) (r : ℕ) (s : App) :
    Prop where
  store : s.db = db
  le : r₀ ≤ r
  editor : ∃ vc, s.editor = some vc ∧ vc.groupId = g ∧ vc.rowNum = r ∧
    ∀ f v, unedited f → db.stored g f = some v → KeptText db g r₀ r f v (vc.texts f)

section Session

variable {db : Realm} {g : ℤ} {r₀ r : ℕ} {unedited : Field → Prop} {s s' t : App} {e : Event}
  {es : List Event}

/-- An opened group is in session. -/
theorem inSession_of_select (hinv : s.Inv) {row : ℕ} {select reads : Reads}
    (hg : s.list.groupIdList[row]? = some g)
    (he : app.enabled s (.didSelectRowAt row select reads))
    (hs : app.step s (.didSelectRowAt row select reads) = some s') :
    InSession s.db g (App.selectedRowNum s.db g select) unedited
      (App.selectedRowNum s.db g select) s' := by
  cases hinv.handled he hs with
  | @select _ g' _ _ hed hrow hg' hreads =>
    obtain rfl : g = g' := Option.some_inj.mp (hg.symm.trans hg')
    refine ⟨rfl, le_rfl, _, rfl, rfl, rfl, ?_⟩
    intro f v _ hf
    have hwithin := Realm.within_of_stored (hinv.keys g).numbered hf
    have hb := App.fresh_bounded hinv.keys g (@App.selectedRowNum_mem s.db g select) hreads s.width
    exact keptText_reloaded hf (hwithin.mono hb.stored_le)

theorem InSession.step (h : InSession db g r₀ unedited r s) (hinv : s.Inv) (hin : e.inSession)
    (hedit : ∀ f text, unedited f → e ≠ .edit f text) (he : app.enabled s e)
    (hs : app.step s e = some s') :
    InSession db g r₀ unedited (r + [e].countP Event.isAddItem) s' := by
  obtain ⟨rfl, hle, vc, hed, rfl, rfl, htext⟩ := h
  cases hinv.handled he hs with
  | notPresented reads => exact hin.elim
  | addNew hed hmax hreads => exact hin.elim
  | select hed hrow hg hreads => exact hin.elim
  | delete hed hrow hg => exact hin.elim
  | save hed hsave => exact hin.elim
  | back => exact hin.elim
  | swipe => exact hin.elim
  | launch => exact hin.elim
  | layout => exact ⟨rfl, hle, vc, hed, rfl, rfl, htext⟩
  | @edit vc' field text hed' hf =>
    obtain rfl : vc = vc' := Option.some_inj.mp (hed.symm.trans hed')
    refine ⟨rfl, hle, _, rfl, rfl, rfl, ?_⟩
    intro f v hun hv
    have hne : f ≠ field := by
      rintro rfl
      exact hedit f text hun rfl
    show KeptText _ _ _ _ f v (setText vc.texts field (some text) f)
    rw [CompareMainVC.setText_apply, if_neg hne]
    exact htext f v hun hv
  | @addName vc' reads hed' hbtn =>
    obtain rfl : vc = vc' := Option.some_inj.mp (hed.symm.trans hed')
    refine ⟨rfl, hle, _, rfl, rfl, rfl, ?_⟩
    intro f v hun hv
    exact keptText_tapped { vc with colNum := vc.colNum + 1 } rfl hv (htext f v hun hv) hle
      le_rfl (Nat.le_succ _)
  | @addItem vc' reads hed' hbtn =>
    obtain rfl : vc = vc' := Option.some_inj.mp (hed.symm.trans hed')
    refine ⟨rfl, Nat.le_succ_of_le hle, _, rfl, rfl, rfl, ?_⟩
    intro f v hun hv
    exact keptText_tapped { vc with rowNum := vc.rowNum + 1 } rfl hv (htext f v hun hv) hle
      (Nat.le_succ _) le_rfl

/-- Along a session the unedited fields are as `Kept` says, the number of rows
growing with the + row taps. -/
theorem InSession.run (h : InSession db g r₀ unedited r s) (hrun : app.Run s es t) (hinv : s.Inv)
    (hes : ∀ e ∈ es, e.inSession ∧ ∀ f text, unedited f → e ≠ .edit f text) :
    t.Inv ∧ InSession db g r₀ unedited (r + rowTaps es) t := by
  induction hrun generalizing r with
  | nil s => exact ⟨hinv, h⟩
  | @cons s s' t e es he hs _ ih =>
    obtain ⟨hin, hedit⟩ := hes e List.mem_cons_self
    have hnext := ih (h.step hinv hin hedit he hs) (hinv.step he hs)
      fun e' he' => hes e' (List.mem_cons_of_mem _ he')
    have hcount : rowTaps (e :: es) = [e].countP Event.isAddItem + rowTaps es := by
      show List.countP _ ([e] ++ es) = _
      rw [List.countP_append]
      rfl
    rwa [hcount, ← Nat.add_assoc]

/-- A successful save stores the texts of the fields that had a stored value. -/
theorem InSession.save (h : InSession db g r₀ unedited r s) (hinv : s.Inv) {now : String}
    {writes : Writes} {reads : Reads} (hok : (Event.saveBtnDidTap now writes reads).succeeds)
    (he : app.enabled s (.saveBtnDidTap now writes reads))
    (hs : app.step s (.saveBtnDidTap now writes reads) = some s') :
    ∀ f v, unedited f → db.stored g f = some v →
      ∃ text, s'.db.stored g f = some text ∧ KeptText db g r₀ r f v text := by
  obtain ⟨rfl, hle, vc, hed, rfl, rfl, htext⟩ := h
  intro f v hun hv
  cases hinv.handled he hs with
  | @save vc' _ _ _ outcome hed' hsave =>
    obtain rfl : vc = vc' := Option.some_inj.mp (hed.symm.trans hed')
    have hb := hinv.editor vc hed
    have hw := CompareMainVC.saveData_written hinv.keys hb.loaded hb.two_le_colNum hb.colNum_le
      hok.1 hok.2.1 hsave
    have hwithin := Realm.within_of_stored (hinv.keys vc.groupId).numbered hv
    exact ⟨vc.texts f, hw.stored (hwithin.mono hb.stored_le), htext f v hun hv⟩

end Session

/-! ### What a session keeps -/

/-- The condition under which a session keeps every unedited value. -/
structure SessionKeeps (db : Realm) (g : ℤ) (es : List Event) : Prop where
  /-- The first two cells of row 1 are blank, or its heading is not. -/
  firstRow : ∀ c : Fin 5, c.val < 2 → Unedited es (.contentTF c 0) →
    db.NonBlank g (.contentTF c 0) → db.NonBlank g (.itemTF 0)
  /-- A cell of the first column in a later row is blank, or the row is shown
  when the group is opened, or it is row 5, 6 or 7 and comes into view. -/
  firstColumn : ∀ k : Fin 7, k ≠ 0 → Unedited es (.contentTF 0 k) →
    db.NonBlank g (.contentTF 0 k) →
    db.RowShown g k ∨ (4 ≤ k.val ∧ db.hiddenRows g k ≤ rowTaps es)

section Keeps

variable {db : Realm} {g : ℤ} {r₀ : ℕ} {k : Fin 7}

theorem length_hiddenRows : ∀ (r₀ : Fin 8) (k : Fin 7), r₀ ≠ 0 →
    ((List.finRange 7).filter fun j => j ≠ 0 ∧ j ≤ k ∧ ¬ j.val < r₀.val).length =
      k.val + 1 - r₀.val := by
  decide

/-- A row comes into view when the taps are at least the hidden rows above and
including it. -/
theorem hiddenRows_le_iff {n : ℕ} (hr : 1 ≤ r₀ ∧ r₀ ≤ 7)
    (hshown : ∀ j : Fin 7, j ≠ 0 → (j.val < r₀ ↔ db.RowShown g j)) (hk : r₀ ≤ k.val) :
    db.hiddenRows g k ≤ n ↔ k.val < r₀ + n := by
  have hrows : db.hiddenRows g k = k.val + 1 - r₀ := by
    have hfilter : ((List.finRange 7).filter fun j => j ≠ 0 ∧ j ≤ k ∧ ¬ db.RowShown g j) =
        (List.finRange 7).filter fun j => j ≠ 0 ∧ j ≤ k ∧ ¬ j.val < r₀ := by
      refine List.filter_congr fun j _ => decide_eq_decide.mpr ?_
      refine and_congr_right fun hj => and_congr_right fun _ => ?_
      rw [hshown j hj]
    rw [Realm.hiddenRows, hfilter]
    exact length_hiddenRows ⟨r₀, by omega⟩ k fun h => by
      have : r₀ = 0 := congrArg Fin.val h
      omega
  omega

/-- A row with a stored value that is not blank, and not in the first column, is
shown. -/
theorem rowShown_of_nonBlank (hk : db.GroupKeys g) {f : Field} (hrow : f.row = some k.val)
    (hcol : ∀ j, f ≠ .contentTF 0 j) (hblank : db.NonBlank g f) : db.RowShown g k := by
  obtain ⟨v, hf, hne⟩ := hblank
  refine ⟨k, le_rfl, ?_⟩
  obtain ⟨j, hj, hfield⟩ := Field.row_eq_some_iff.mp hrow
  obtain rfl : j = k := Fin.ext hj
  rcases hfield with rfl | ⟨c, rfl⟩
  · obtain ⟨item, hitem, rfl⟩ := Option.map_eq_some_iff.mp hf
    exact .inl ⟨item, List.mem_of_head? hitem, hne⟩
  · obtain ⟨content, hc, rfl⟩ := Option.map_eq_some_iff.mp hf
    obtain ⟨hmem, hid⟩ := hk.firstWithId_eq_some_iff.mp hc
    refine .inr ⟨content, hmem, ?_, hne⟩
    intro h0
    rw [h0] at hid
    have hzero : c = 0 := Fin.ext hid.symm
    exact hcol j (by rw [hzero])

/-- What `SessionKeeps` does not allow to be lost is kept. -/
theorem SessionKeeps.kept {es : List Event} (h : SessionKeeps db g es) (hk : db.GroupKeys g)
    (hr : 1 ≤ r₀ ∧ r₀ ≤ 7) (hshown : ∀ j : Fin 7, j ≠ 0 → (j.val < r₀ ↔ db.RowShown g j))
    {f : Field} (hun : Unedited es f) (hblank : db.NonBlank g f) :
    Kept db g r₀ (r₀ + rowTaps es) f := by
  -- outside the first column, text in a row makes the row shown
  have hopened : ∀ k : Fin 7, k ≠ 0 → f.row = some k.val → (∀ j, f ≠ .contentTF 0 j) →
      k.val < r₀ :=
    fun k h0 hrow hcol => (hshown k h0).mpr (rowShown_of_nonBlank hk hrow hcol hblank)
  cases f with
  | groupNameTF => trivial
  | nameTF c => trivial
  | memoTV c => trivial
  | itemTF k =>
    by_cases h0 : k = 0
    · exact .inl h0
    · exact .inr (.inl (hopened k h0 rfl fun j => Field.noConfusion))
  | contentTF c k =>
    by_cases h0 : k = 0
    · subst h0
      exact kept_first_iff.mpr fun hc => h.firstRow c hc hun hblank
    rw [Kept, if_neg h0]
    by_cases hc : c = 0
    · subst hc
      by_cases hlt : k.val < r₀
      · exact .inl hlt
      rcases h.firstColumn k h0 hun hblank with hrow | ⟨hfour, htaps⟩
      · exact .inl ((hshown k h0).mpr hrow)
      · exact .inr ⟨hfour, (hiddenRows_le_iff hr hshown (by omega)).mp htaps⟩
    · exact .inl (hopened k h0 rfl fun j heq => hc (Field.contentTF.inj heq).1)

/-- When a save leaves in the store what `KeptText` says, no unedited value
changes unless it is text that is not kept. -/
theorem forall_stored_iff {db' : Realm} {r : ℕ} {unedited : Field → Prop}
    (hafter : ∀ f v, unedited f → db.stored g f = some v →
      ∃ text, db'.stored g f = some text ∧ KeptText db g r₀ r f v text) :
    (∀ f v, unedited f → db.stored g f = some v → db'.stored g f = some v) ↔
      ∀ f, unedited f → db.NonBlank g f → Kept db g r₀ r f := by
  constructor
  · rintro h f hun ⟨v, hf, hne⟩
    obtain ⟨text, htext, hkept⟩ := hafter f v hun hf
    rw [h f v hun hf, Option.some_inj] at htext
    exact (hkept.eq_iff hf).mp htext.symm ⟨v, hf, hne⟩
  · intro h f v hun hf
    obtain ⟨text, htext, hkept⟩ := hafter f v hun hf
    rwa [(hkept.eq_iff hf).mpr (h f hun)] at htext

end Keeps

/-- **What a session keeps.**  A session on a stored group whose Realm
operations succeed keeps every stored value that is not edited exactly when no
first cell is under a blank first heading, and no cell of the first column is in
a row that stays out of view, or comes into view as row 2, 3 or 4. -/
theorem session_keeps_iff {s t : App} {row : ℕ} {g : ℤ} {select reads reads' : Reads}
    {es : List Event} {now : String} {writes : Writes} (hs : Reachable s)
    (hg : s.list.groupIdList[row]? = some g) (hstored : s.db.itemsOf g ≠ [])
    (hrun : app.Run s
      ([.didSelectRowAt row select reads] ++ es ++ [.saveBtnDidTap now writes reads']) t)
    (hopen : (Event.didSelectRowAt row select reads).succeeds)
    (hes : ∀ e ∈ es, e.inSession ∧ e.succeeds)
    (hsave : (Event.saveBtnDidTap now writes reads').succeeds) :
    (∀ f v, Unedited es f → s.db.stored g f = some v → t.db.stored g f = some v) ↔
      SessionKeeps s.db g es := by
  have hinv := hs.inv
  have hk := hinv.keys g
  obtain ⟨u, hu, hlast⟩ := EventSystem.run_append_iff.mp hrun
  obtain ⟨u₀, hfirst, hedits⟩ := EventSystem.run_append_iff.mp hu
  obtain ⟨he, hstep⟩ := EventSystem.run_single_iff.mp hfirst
  obtain ⟨he', hstep'⟩ := EventSystem.run_single_iff.mp hlast
  -- the row count of the opened group
  have hr₀ : App.selectedRowNum s.db g select =
      ViewController.idNum (s.db.itemsOf g) (s.db.contentsOf g) := if_pos hopen.1
  have hr := @App.selectedRowNum_mem s.db g select
  have hshown : ∀ j : Fin 7, j ≠ 0 →
      (j.val < App.selectedRowNum s.db g select ↔ s.db.RowShown g j) := by
    intro j hj
    rw [hr₀]
    exact ViewController.lt_idNum_iff hk hstored hj
  have hopened : InSession s.db g _ (Unedited es) _ u₀ := inSession_of_select hinv hg he hstep
  obtain ⟨huinv, hsession⟩ := hopened.run hedits (hinv.step he hstep)
    fun e hmem => ⟨(hes e hmem).1, fun f text hun heq => hun text (heq ▸ hmem)⟩
  rw [forall_stored_iff (hsession.save huinv hsave he' hstep')]
  constructor
  · intro hkept
    refine ⟨?_, ?_⟩
    · intro c hc hun hblank
      exact kept_first_iff.mp (hkept _ hun hblank) hc
    · intro k h0 hun hblank
      have hlater := hkept _ hun hblank
      rw [Kept, if_neg h0] at hlater
      by_cases hlt : k.val < App.selectedRowNum s.db g select
      · exact .inl ((hshown k h0).mp hlt)
      · obtain ⟨hfour, htaps⟩ := hlater.resolve_left hlt
        exact .inr ⟨hfour, (hiddenRows_le_iff hr hshown (by omega)).mpr htaps⟩
  · intro h f hun hblank
    exact h.kept hk hr hshown hun hblank

/-- A comparison with text in the first column of its second row only is opened
and saved, untouched. -/
def untouched : List Event :=
  [.didSelectRowAt 0 .ok .ok] ++ [] ++ [.saveBtnDidTap "" .ok .ok]

theorem untouched_isSome :
    (app.exec App.init (ViewController.firstColumnOnly ++ untouched)).isSome = true := by
  decide +kernel

theorem session_keeps_iff_untouched : ∃ s t, app.Run App.init ViewController.firstColumnOnly s ∧
    app.Run s untouched t ∧
    ((∀ f v, Unedited [] f → s.db.stored 1 f = some v → t.db.stored 1 f = some v) ↔
      SessionKeeps s.db 1 []) := by
  obtain ⟨s, hs, ht⟩ := EventSystem.run_append_iff.mp (EventSystem.run_get_exec untouched_isSome)
  obtain rfl := hs.det (EventSystem.run_get_exec ViewController.firstColumnOnly_isSome)
  have hstored : ((app.exec App.init ViewController.firstColumnOnly).get
      ViewController.firstColumnOnly_isSome).db.itemsOf 1 ≠ [] := by
    decide +kernel
  have hok : Reads.ok.succeed := ⟨rfl, rfl⟩
  exact ⟨_, _, hs, ht, session_keeps_iff ⟨_, hs⟩ rfl hstored ht ⟨hok, hok⟩
    (fun e he => absurd he List.not_mem_nil) ⟨rfl, fun _ => rfl, hok⟩⟩

/-- The text is gone. -/
theorem untouched_loses : ∃ s t, app.Run App.init ViewController.firstColumnOnly s ∧
    app.Run s untouched t ∧ s.list.groupIdList[0]? = some 1 ∧
    s.db.stored 1 (.contentTF 0 1) = some "a" ∧ t.db.stored 1 (.contentTF 0 1) = some "" := by
  obtain ⟨s, hs, ht⟩ := EventSystem.run_append_iff.mp (EventSystem.run_get_exec untouched_isSome)
  obtain rfl := hs.det (EventSystem.run_get_exec ViewController.firstColumnOnly_isSome)
  exact ⟨_, _, hs, ht, by decide +kernel, by decide +kernel, by decide +kernel⟩

end HikakuKun
