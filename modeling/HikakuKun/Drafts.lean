/-
The order of the + taps.

A + tap keeps every text but those of one row: it reads the last row from the
store when this is the fifth, the sixth or the seventh.  A row that has just
come into view has nothing to lose there; the last row of the editor as it was
has, when the first of the taps adds a column.  How often a session taps, and
which button first, is all that its texts depend on.

* `tapped_texts_eq` — what a tap does to a text;
* `drafted_of_run` — what a session does to a field that is not typed into;
* `same_taps_iff` — exactly when two orders of taps come to the same;
* `typed_text_saved` — what a save stores of a text that was typed.
-/
import HikakuKun.Session

namespace HikakuKun

namespace Event

def isAddName : Event → Bool
  | addNewNameBtnDidTap _ => true
  | _ => false

/-- A + tap of the editor. -/
def isTap (e : Event) : Bool := e.isAddName || e.isAddItem

end Event

/-- The number of + column taps. -/
def nameTaps (es : List Event) : ℕ := es.countP Event.isAddName

/-- The first of the + taps adds a column. -/
def columnFirst : List Event → Bool
  | [] => false
  | .addNewNameBtnDidTap _ :: _ => true
  | .addNewItemBtnDidTap _ :: _ => false
  | _ :: es => columnFirst es

theorem nameTaps_cons (e : Event) (es : List Event) :
    nameTaps (e :: es) = nameTaps [e] + nameTaps es := by
  show List.countP _ ([e] ++ es) = _
  rw [List.countP_append]
  rfl

theorem rowTaps_cons (e : Event) (es : List Event) :
    rowTaps (e :: es) = rowTaps [e] + rowTaps es := by
  show List.countP _ ([e] ++ es) = _
  rw [List.countP_append]
  rfl

/-- The + taps of a session read the field from the store, in an editor that
showed `r` rows: its row is one of the last three, and comes into view or is
the last when the first tap adds a column. -/
def Reread (r : ℕ) (es : List Event) (f : Field) : Prop :=
  ∃ k ∈ f.row, 4 ≤ k ∧ k < r + rowTaps es ∧ (r ≤ k ∨ (k + 1 = r ∧ columnFirst es = true))

instance (r : ℕ) (es : List Event) (f : Field) : Decidable (Reread r es f) :=
  inferInstanceAs (Decidable (∃ k ∈ f.row, _))

section Reread

variable {r k : ℕ} {es : List Event} {f : Field} {reads : Reads}

theorem reread_of_row (hf : f.row = some k) :
    Reread r es f ↔
      4 ≤ k ∧ k < r + rowTaps es ∧ (r ≤ k ∨ (k + 1 = r ∧ columnFirst es = true)) := by
  constructor
  · rintro ⟨j, hj, h⟩
    rwa [Option.some_inj.mp (hf.symm.trans hj)]
  · intro h
    exact ⟨k, hf, h⟩

theorem not_reread_of_row_eq_none (hf : f.row = none) : ¬ Reread r es f := by
  rintro ⟨k, hk, -⟩
  rw [hf] at hk
  cases hk

/-- A + column tap first: it reads the last row. -/
theorem reread_addName_cons :
    Reread r (.addNewNameBtnDidTap reads :: es) f ↔
      (∃ k ∈ f.row, 4 ≤ k ∧ k + 1 = r) ∨ Reread r es f := by
  have htaps : rowTaps (.addNewNameBtnDidTap reads :: es) = rowTaps es :=
    (rowTaps_cons _ _).trans (Nat.zero_add _)
  have hfirst : columnFirst (.addNewNameBtnDidTap reads :: es) = true := rfl
  constructor
  · rintro ⟨k, hk, hfour, hlt, hr⟩
    rw [htaps] at hlt
    rcases hr with hr | ⟨hlast, -⟩
    · exact .inr ⟨k, hk, hfour, hlt, .inl hr⟩
    · exact .inl ⟨k, hk, hfour, hlast⟩
  · rintro (⟨k, hk, hfour, hlast⟩ | ⟨k, hk, hfour, hlt, hr⟩)
    · exact ⟨k, hk, hfour, by omega, .inr ⟨hlast, hfirst⟩⟩
    · refine ⟨k, hk, hfour, by omega, ?_⟩
      rcases hr with hr | ⟨hlast, -⟩
      · exact .inl hr
      · exact .inr ⟨hlast, hfirst⟩

/-- A + row tap first: it reads the row that comes into view. -/
theorem reread_addItem_cons :
    Reread r (.addNewItemBtnDidTap reads :: es) f ↔
      (∃ k ∈ f.row, 4 ≤ k ∧ k + 1 = r + 1) ∨ Reread (r + 1) es f := by
  have htaps : rowTaps (.addNewItemBtnDidTap reads :: es) = 1 + rowTaps es := rowTaps_cons _ _
  have hfirst : ¬ columnFirst (.addNewItemBtnDidTap reads :: es) = true := Bool.false_ne_true
  constructor
  · rintro ⟨k, hk, hfour, hlt, hr⟩
    have hle : r ≤ k := by
      rcases hr with hr | ⟨-, htrue⟩
      · exact hr
      · exact absurd htrue hfirst
    by_cases hnew : k = r
    · exact .inl ⟨k, hk, hfour, by omega⟩
    · exact .inr ⟨k, hk, hfour, by omega, .inl (by omega)⟩
  · rintro (⟨k, hk, hfour, hlast⟩ | ⟨k, hk, hfour, hlt, hr⟩)
    · exact ⟨k, hk, hfour, by omega, .inl (by omega)⟩
    · exact ⟨k, hk, hfour, by omega, .inl (by omega)⟩

end Reread

namespace CompareMainVC

variable {vc : CompareMainVC} {reads : Reads} {width : ℚ} {db : Realm} {f : Field}

/-- A tap keeps a text, unless it is in the last row and this is row 5, 6 or 7:
then it is read from the store. -/
theorem tapped_texts_eq (hrow : vc.rowNum ≤ 7) :
    (vc.tapped reads width db).texts f = if ∃ k ∈ f.row, 4 ≤ k ∧ k + 1 = vc.rowNum then
      (db.stored vc.groupId f).getD (vc.texts f) else vc.texts f := by
  have htext : (vc.tapped reads width db).texts f = if Restored vc.rowNum f then vc.texts f
      else reloaded db vc.groupId (vc.loadedColNum reads db) vc.rowNum vc.texts f := rfl
  rw [htext]
  cases hk : f.row with
  | none => rw [if_pos (restored_of_row_eq_none hk), if_neg (by simp)]
  | some k =>
    have hlast : (∃ j ∈ some k, 4 ≤ j ∧ j + 1 = vc.rowNum) ↔ 4 ≤ k ∧ k + 1 = vc.rowNum := by
      simp
    simp only [hlast, restored_of_row hk]
    by_cases hpos : 0 < k
    · have hlt : k < 7 := by
        obtain ⟨j, rfl, -⟩ := Field.row_eq_some_iff.mp hk
        exact j.isLt
      rw [reloaded_of_row hk hpos]
      -- below the last row nothing is shown, so nothing is read
      split_ifs <;> first | rfl | omega
    · rw [if_pos (by omega), if_neg (by omega)]

/-- The text the + taps of a session leave in a field. -/
def drafted (db : Realm) (vc : CompareMainVC) (es : List Event) (f : Field) : String :=
  if Reread vc.rowNum es f then (db.stored vc.groupId f).getD (vc.texts f) else vc.texts f

end CompareMainVC

/-! ### Sessions -/

/-- After the session `es` in editor `vc` the store is still `db`, the numbers
have grown with the taps, and the fields that were not typed into are as
drafted. -/
structure Drafted (db : Realm) (vc : CompareMainVC) (es : List Event) (t : App) : Prop where
  store : t.db = db
  editor : ∃ vc', t.editor = some vc' ∧ vc'.groupId = vc.groupId ∧
    vc'.colNum = vc.colNum + nameTaps es ∧ vc'.rowNum = vc.rowNum + rowTaps es ∧
    ∀ f, Unedited es f → vc'.texts f = vc.drafted db es f

section Drafted

variable {db : Realm} {vc vc₁ : CompareMainVC} {s s' t : App} {e : Event} {es : List Event}

/-- One event before the session. -/
theorem Drafted.cons (h : Drafted db vc₁ es t) (hg : vc₁.groupId = vc.groupId)
    (hcol : vc₁.colNum = vc.colNum + nameTaps [e]) (hrow : vc₁.rowNum = vc.rowNum + rowTaps [e])
    (htext : ∀ f, Unedited (e :: es) f → vc₁.drafted db es f = vc.drafted db (e :: es) f) :
    Drafted db vc (e :: es) t := by
  obtain ⟨hstore, vc', hvc', hg', hcol', hrow', htext'⟩ := h
  refine ⟨hstore, vc', hvc', hg'.trans hg, ?_, ?_, ?_⟩
  · rw [hcol', hcol, nameTaps_cons e es, Nat.add_assoc]
  · rw [hrow', hrow, rowTaps_cons e es, Nat.add_assoc]
  · intro f hf
    rw [htext' f fun text hmem => hf text (List.mem_cons_of_mem _ hmem)]
    exact htext f hf

/-- A tap, and then the rest of the session: what either reads from the store
is the same. -/
theorem drafted_tapped {r : ℕ} {f : Field} (hg : vc₁.groupId = vc.groupId)
    (hrow : vc₁.rowNum = r)
    (htext : vc₁.texts f = if ∃ k ∈ f.row, 4 ≤ k ∧ k + 1 = r then
      (db.stored vc.groupId f).getD (vc.texts f) else vc.texts f)
    (hread : Reread vc.rowNum (e :: es) f ↔ (∃ k ∈ f.row, 4 ≤ k ∧ k + 1 = r) ∨ Reread r es f) :
    vc₁.drafted db es f = vc.drafted db (e :: es) f := by
  have hagain : ∀ text, (db.stored vc.groupId f).getD ((db.stored vc.groupId f).getD text) =
      (db.stored vc.groupId f).getD text := by
    intro text
    cases db.stored vc.groupId f with
    | none => rfl
    | some v => rfl
  rw [CompareMainVC.drafted, CompareMainVC.drafted, hg, hrow, htext, if_congr hread rfl rfl]
  by_cases hlast : ∃ k ∈ f.row, 4 ≤ k ∧ k + 1 = r
  · rw [if_pos hlast, if_pos (Or.inl hlast), hagain, ite_self]
  · rw [if_neg hlast, if_congr (or_iff_right hlast) rfl rfl]

/-- What a session does, its events taken from the front. -/
theorem App.Inv.drafted_of_run (hinv : s.Inv) (hvc : s.editor = some vc) (hrun : app.Run s es t)
    (hes : ∀ e ∈ es, e.inSession) : Drafted s.db vc es t := by
  induction hrun generalizing vc with
  | nil s =>
    refine ⟨rfl, vc, hvc, rfl, rfl, rfl, ?_⟩
    intro f _
    have hnot : ¬ Reread vc.rowNum [] f := by
      rintro ⟨k, -, -, hlt, hle | ⟨-, hfirst⟩⟩
      · exact absurd hlt (Nat.not_lt.mpr hle)
      · cases hfirst
    rw [CompareMainVC.drafted, if_neg hnot]
  | @cons s s' t e es he hs _ ih =>
    have hin := hes e List.mem_cons_self
    have hinv' := hinv.step he hs
    have hrest : ∀ {vc'}, s'.editor = some vc' → Drafted s'.db vc' es t :=
      fun hvc' => ih hinv' hvc' fun e' he' => hes e' (List.mem_cons_of_mem _ he')
    cases hinv.handled he hs with
    | notPresented reads => exact hin.elim
    | addNew hed hmax hreads => exact hin.elim
    | select hed hrow hg hreads => exact hin.elim
    | delete hed hrow hg => exact hin.elim
    | save hed hsave => exact hin.elim
    | back => exact hin.elim
    | swipe => exact hin.elim
    | launch => exact hin.elim
    | layout => exact (hrest hvc).cons rfl rfl rfl fun f _ => rfl
    | @edit vc' field text hed hf =>
      obtain rfl : vc = vc' := Option.some_inj.mp (hvc.symm.trans hed)
      refine (hrest rfl).cons rfl rfl rfl fun f hun => ?_
      have hne : f ≠ field := by
        rintro rfl
        exact hun text List.mem_cons_self
      have htext : (vc.edit field text).texts f = vc.texts f :=
        (CompareMainVC.setText_apply ..).trans (if_neg hne)
      rw [CompareMainVC.drafted, htext]
      rfl
    | @addName vc' reads hed hbtn =>
      obtain rfl : vc = vc' := Option.some_inj.mp (hvc.symm.trans hed)
      have hle := (hinv.editor vc hvc).rowNum_le
      have hcol := Nat.le_succ_of_le (hinv.editor vc hvc).stored_le
      refine (hrest rfl).cons rfl (CompareMainVC.loadedColNum_eq hcol) rfl fun f _ => ?_
      exact drafted_tapped rfl rfl (CompareMainVC.tapped_texts_eq hle) reread_addName_cons
    | @addItem vc' reads hed hbtn =>
      obtain rfl : vc = vc' := Option.some_inj.mp (hvc.symm.trans hed)
      have hle := Nat.succ_le_succ ((hinv.editor vc hvc).itemBtn hbtn)
      have hcol := (hinv.editor vc hvc).stored_le
      refine (hrest rfl).cons rfl (CompareMainVC.loadedColNum_eq hcol) rfl fun f _ => ?_
      exact drafted_tapped rfl rfl
        (@CompareMainVC.tapped_texts_eq { vc with rowNum := vc.rowNum + 1 } _ _ _ _ hle)
        reread_addItem_cons

end Drafted

/-! ### The order of the taps -/

namespace CompareMainVC

/-- The editor with its results loaded and its buttons as a redisplay leaves
them. -/
def redrawn (width : ℚ) (vc : CompareMainVC) : CompareMainVC :=
  { vc with
    items := some ⟨vc.groupId⟩
    contents := some ⟨vc.groupId⟩
    addNewNameBtn := addsNewNameBtn width vc.colNum
    addNewItemBtn := decide (vc.rowNum ≤ 6) }

theorem redrawn_tapped {vc : CompareMainVC} {reads : Reads} {width : ℚ} {db : Realm} :
    (vc.tapped reads width db).redrawn width = vc.tapped reads width db := rfl

/-- A redrawn editor is its numbers and its texts. -/
theorem redrawn_congr {vc vc' : CompareMainVC} {width : ℚ} (hg : vc.groupId = vc'.groupId)
    (hcol : vc.colNum = vc'.colNum) (hrow : vc.rowNum = vc'.rowNum)
    (htexts : vc.texts = vc'.texts) : vc.redrawn width = vc'.redrawn width := by
  rw [redrawn, redrawn, hg, hcol, hrow, htexts]

end CompareMainVC

section Taps

variable {vc : CompareMainVC} {s s' t t' : App} {e : Event} {es es' : List Event}

/-- `u` differs from `s` in its editor only, and this was redrawn. -/
def App.Redrawn (s u : App) : Prop := ∃ vc, u = s.showing vc ∧ vc.redrawn s.width = vc

theorem App.Inv.redrawn_step (hinv : s.Inv) (htap : e.isTap = true) (he : app.enabled s e)
    (hs : app.step s e = some s') : s.Redrawn s' := by
  cases hinv.handled he hs with
  | addName hed hbtn => exact ⟨_, rfl, CompareMainVC.redrawn_tapped⟩
  | addItem hed hbtn => exact ⟨_, rfl, CompareMainVC.redrawn_tapped⟩
  | _ => cases htap

theorem App.Redrawn.trans {u v : App} (h : s.Redrawn u) (h' : u.Redrawn v) : s.Redrawn v := by
  obtain ⟨vc, rfl, -⟩ := h
  exact h'

/-- Taps change the editor only. -/
theorem App.Inv.redrawn_of_run (hinv : s.Inv) (hrun : app.Run s es t)
    (htaps : ∀ e ∈ es, e.isTap = true) (hne : es ≠ []) : s.Redrawn t := by
  cases hrun with
  | nil => exact absurd rfl hne
  | @cons _ s' _ e es he hs hrest =>
    have hfirst := hinv.redrawn_step (htaps e List.mem_cons_self) he hs
    have hboth : t.Inv ∧ s.Redrawn t :=
      hrest.invariant_on (I := fun u => u.Inv ∧ s.Redrawn u)
        (fun ⟨hi, h⟩ htap he hs => ⟨hi.step he hs, h.trans (hi.redrawn_step htap he hs)⟩)
        (fun e' he' => htaps e' (List.mem_cons_of_mem _ he')) ⟨hinv.step he hs, hfirst⟩
    exact hboth.2

theorem Event.inSession_of_isTap (h : e.isTap = true) : e.inSession := by
  cases e with
  | addNewNameBtnDidTap reads => trivial
  | addNewItemBtnDidTap reads => trivial
  | _ => cases h

/-- Taps type nothing. -/
theorem unedited_of_isTap (htaps : ∀ e ∈ es, e.isTap = true) (f : Field) : Unedited es f :=
  fun text hmem => Bool.false_ne_true (htaps (.edit f text) hmem)

/-- A field of the last row that has a stored value is one of those on screen. -/
theorem CompareMainVC.visible_of_stored {db : Realm} (hb : vc.Bounded db) (hk : db.Keys)
    {f : Field} {k : ℕ} {v : String} (hf : f.row = some k) (hrow : k < vc.rowNum)
    (hv : db.stored vc.groupId f = some v) : vc.visible f := by
  have hwithin := Realm.within_of_stored (hk vc.groupId).numbered hv
  obtain ⟨j, rfl, rfl | ⟨c, rfl⟩⟩ := Field.row_eq_some_iff.mp hf
  · exact hrow
  · exact ⟨Nat.lt_of_lt_of_le hwithin hb.stored_le, hrow⟩

/-- The last row of the editor, when a + column tap does not restore it. -/
theorem CompareMainVC.drafted_last {db : Realm} {f : Field} (hfive : 5 ≤ vc.rowNum)
    (hf : f.row = some (vc.rowNum - 1)) :
    vc.drafted db es f = if columnFirst es = true then
      (db.stored vc.groupId f).getD (vc.texts f) else vc.texts f := by
  have hread : Reread vc.rowNum es f ↔ columnFirst es = true := by
    rw [reread_of_row hf]
    constructor
    · rintro ⟨-, -, hle | ⟨-, hfirst⟩⟩
      · omega
      · exact hfirst
    · intro hfirst
      exact ⟨by omega, by omega, .inr ⟨by omega, hfirst⟩⟩
  rw [drafted, if_congr hread rfl rfl]

/-- Outside that row it does not matter which button was first. -/
theorem CompareMainVC.drafted_of_not_last {db : Realm} {f : Field}
    (htaps : rowTaps es = rowTaps es')
    (hf : ¬ (5 ≤ vc.rowNum ∧ f.row = some (vc.rowNum - 1))) :
    vc.drafted db es f = vc.drafted db es' f := by
  have hread : Reread vc.rowNum es f ↔ Reread vc.rowNum es' f := by
    cases hk : f.row with
    | none => exact iff_of_false (not_reread_of_row_eq_none hk) (not_reread_of_row_eq_none hk)
    | some k =>
      rw [reread_of_row hk, reread_of_row hk, htaps]
      refine and_congr_right fun hfour => and_congr_right fun _ => or_congr_right ?_
      have hlast : k + 1 ≠ vc.rowNum := by
        intro hlast
        refine hf ⟨by omega, ?_⟩
        rw [hk, ← hlast, Nat.add_sub_cancel]
      exact iff_of_false (fun h => hlast h.1) fun h => hlast h.1
  rw [drafted, drafted, if_congr hread rfl rfl]

/-- With as many rows added, two sessions draft the same texts exactly when the
same button was first, or the last row has nothing to lose. -/
theorem CompareMainVC.Bounded.drafted_eq_iff {db : Realm} (hb : vc.Bounded db) (hk : db.Keys)
    (htaps : rowTaps es = rowTaps es') :
    vc.drafted db es = vc.drafted db es' ↔
      columnFirst es = columnFirst es' ∨ vc.LastRowKept db := by
  constructor
  · intro h
    by_cases hfirst : columnFirst es = columnFirst es'
    · exact .inl hfirst
    refine .inr fun hfive f _ hf v hv => ?_
    have hsame := congrFun h f
    rw [drafted_last hfive hf, drafted_last hfive hf, Option.mem_def.mp hv,
      Option.getD_some] at hsame
    -- one of the two reads the row, the other one does not
    cases hes : columnFirst es with
    | true =>
      have hes' : ¬ columnFirst es' = true := fun h' => hfirst (hes.trans h'.symm)
      rwa [if_pos hes, if_neg hes'] at hsame
    | false =>
      have hnot : ¬ columnFirst es = true := by
        rw [hes]
        exact Bool.false_ne_true
      have hes' : columnFirst es' = true := by
        rw [hes] at hfirst
        exact Bool.eq_true_of_not_eq_false fun h' => hfirst h'.symm
      rw [if_neg hnot, if_pos hes'] at hsame
      exact hsame.symm
  · intro h
    funext f
    by_cases hlast : 5 ≤ vc.rowNum ∧ f.row = some (vc.rowNum - 1)
    · obtain ⟨hfive, hf⟩ := hlast
      rw [drafted_last hfive hf, drafted_last hfive hf]
      rcases h with hfirst | hkept
      · rw [hfirst]
      · have hself : (db.stored vc.groupId f).getD (vc.texts f) = vc.texts f := by
          cases hv : db.stored vc.groupId f with
          | none => rfl
          | some v => exact hkept hfive f (visible_of_stored hb hk hf (by omega) hv) hf v hv
        rw [hself, ite_self, ite_self]
    · exact drafted_of_not_last htaps hlast

/-- **The order of the taps.**  Two sequences of taps in an editor, whatever is
read on the way, end in the same state exactly when they add as many columns
and as many rows and begin with the same button, or the last row had no text
that differs from a stored one, or was none of the last three. -/
theorem same_taps_iff (hs : Reachable s) (hvc : s.editor = some vc) (hes : app.Run s es t)
    (hes' : app.Run s es' t') (htaps : ∀ e ∈ es, e.isTap = true)
    (htaps' : ∀ e ∈ es', e.isTap = true) :
    t = t' ↔ nameTaps es = nameTaps es' ∧ rowTaps es = rowTaps es' ∧
      (columnFirst es = columnFirst es' ∨ vc.LastRowKept s.db) := by
  have hb := hs.inv.editor vc hvc
  have hdraft := hs.inv.drafted_of_run hvc hes fun e he => Event.inSession_of_isTap (htaps e he)
  have hdraft' := hs.inv.drafted_of_run hvc hes' fun e he => Event.inSession_of_isTap (htaps' e he)
  obtain ⟨-, v, hv, hg, hcol, hrow, htexts⟩ := hdraft
  obtain ⟨-, v', hv', hg', hcol', hrow', htexts'⟩ := hdraft'
  have hall : v.texts = vc.drafted s.db es := funext fun f => htexts f (unedited_of_isTap htaps f)
  have hall' : v'.texts = vc.drafted s.db es' :=
    funext fun f => htexts' f (unedited_of_isTap htaps' f)
  constructor
  · rintro rfl
    obtain rfl : v = v' := Option.some_inj.mp (hv.symm.trans hv')
    have hrows : rowTaps es = rowTaps es' := by omega
    exact ⟨by omega, hrows, (hb.drafted_eq_iff hs.inv.keys hrows).mp (hall.symm.trans hall')⟩
  · rintro ⟨hcols, hrows, hlast⟩
    have hsame : vc.drafted s.db es = vc.drafted s.db es' :=
      (hb.drafted_eq_iff hs.inv.keys hrows).mpr hlast
    have hcount : ∀ {es}, (∀ e ∈ es, Event.isTap e = true) → nameTaps es = 0 → rowTaps es = 0 →
        es = [] := by
      intro es htaps hn hr
      cases es with
      | nil => rfl
      | cons e es =>
        have htap := htaps e List.mem_cons_self
        rw [nameTaps, List.countP_eq_zero] at hn
        rw [rowTaps, List.countP_eq_zero] at hr
        rw [Event.isTap, Bool.or_eq_true] at htap
        rcases htap with h | h
        · exact absurd h (hn e List.mem_cons_self)
        · exact absurd h (hr e List.mem_cons_self)
    by_cases hne : nameTaps es = 0 ∧ rowTaps es = 0
    -- no taps at all
    · obtain rfl := hcount htaps hne.1 hne.2
      obtain rfl := hcount htaps' (hcols ▸ hne.1) (hrows ▸ hne.2)
      exact hes.det hes'
    · have hnil : es ≠ [] := by
        rintro rfl
        exact hne ⟨rfl, rfl⟩
      have hnil' : es' ≠ [] := by
        rintro rfl
        exact hne ⟨hcols, hrows⟩
      obtain ⟨w, rfl, hw⟩ := hs.inv.redrawn_of_run hes htaps hnil
      obtain ⟨w', rfl, hw'⟩ := hs.inv.redrawn_of_run hes' htaps' hnil'
      obtain rfl : w = v := Option.some_inj.mp hv
      obtain rfl : w' = v' := Option.some_inj.mp hv'
      rw [← hw, ← hw', CompareMainVC.redrawn_congr (hg.trans hg'.symm) (by omega) (by omega)
        (hall.trans (hsame.trans hall'.symm))]

end Taps

theorem unsavedFifthRow_columnFirst_isSome : (app.exec App.init
    (unsavedFifthRow ++ [.addNewNameBtnDidTap .ok, .addNewItemBtnDidTap .ok])).isSome = true := by
  decide +kernel

theorem unsavedFifthRow_rowFirst_isSome : (app.exec App.init
    (unsavedFifthRow ++ [.addNewItemBtnDidTap .ok, .addNewNameBtnDidTap .ok])).isSome = true := by
  decide +kernel

/-- A column and a row are added to a comparison with an unsaved fifth row, in
either order. -/
theorem same_taps_iff_unsavedFifthRow : ∃ s t t' vc, app.Run App.init unsavedFifthRow s ∧
    s.editor = some vc ∧ app.Run s [.addNewNameBtnDidTap .ok, .addNewItemBtnDidTap .ok] t ∧
    app.Run s [.addNewItemBtnDidTap .ok, .addNewNameBtnDidTap .ok] t' ∧
    (t = t' ↔ vc.LastRowKept s.db) := by
  have hrun := EventSystem.run_get_exec unsavedFifthRow_isSome
  obtain ⟨s, hs, ht⟩ := EventSystem.run_append_iff.mp
    (EventSystem.run_get_exec unsavedFifthRow_columnFirst_isSome)
  obtain rfl := hs.det hrun
  obtain ⟨s', hs', ht'⟩ := EventSystem.run_append_iff.mp
    (EventSystem.run_get_exec unsavedFifthRow_rowFirst_isSome)
  obtain rfl := hs'.det hrun
  have hed : ((app.exec App.init unsavedFifthRow).get unsavedFifthRow_isSome).editor.isSome =
      true := by decide
  obtain ⟨vc, hvc⟩ := Option.isSome_iff_exists.mp hed
  have hiff := same_taps_iff ⟨_, hrun⟩ hvc ht ht' (by decide) (by decide)
  refine ⟨_, _, _, vc, hrun, hvc, ht, ht', hiff.trans ?_⟩
  constructor
  · rintro ⟨-, -, hfirst | hkept⟩
    · cases hfirst
    · exact hkept
  · intro hkept
    exact ⟨rfl, rfl, .inr hkept⟩

/-! ### What is typed and what is stored -/

section Typed

variable {s t : App} {vc : CompareMainVC} {f : Field} {text now : String} {es : List Event}
  {writes : Writes} {reads : Reads}

/-- Of a field on screen, only the last row is ever read from the store. -/
theorem CompareMainVC.drafted_of_visible {db : Realm} (hf : vc.visible f) :
    vc.drafted db es f =
      if 5 ≤ vc.rowNum ∧ f.row = some (vc.rowNum - 1) ∧ columnFirst es = true then
        (db.stored vc.groupId f).getD (vc.texts f) else vc.texts f := by
  by_cases hlast : 5 ≤ vc.rowNum ∧ f.row = some (vc.rowNum - 1)
  · rw [drafted_last hlast.1 hlast.2]
    refine if_congr ?_ rfl rfl
    exact ⟨fun h => ⟨hlast.1, hlast.2, h⟩, fun h => h.2.2⟩
  · have hnot : ¬ Reread vc.rowNum es f := by
      rintro ⟨k, hk, hfour, -, hle | ⟨hkr, -⟩⟩
      · have hlt := lt_rowNum_of_visible hf hk
        omega
      · refine hlast ⟨by omega, ?_⟩
        rw [hk, ← hkr, Nat.add_sub_cancel]
    rw [drafted, if_neg hnot, if_neg fun h => hlast ⟨h.1, h.2.1⟩]

/-- A successful save stores the texts of its columns. -/
theorem App.Inv.stored_of_save (hinv : s.Inv) (hvc : s.editor = some vc)
    (hsave : (Event.saveBtnDidTap now writes reads).succeeds) (hf : f.Within vc.colNum)
    (he : app.enabled s (.saveBtnDidTap now writes reads))
    (hs : app.step s (.saveBtnDidTap now writes reads) = some t) :
    t.db.stored vc.groupId f = some (vc.texts f) := by
  cases hinv.handled he hs with
  | @save vc' _ _ _ outcome hed hdata =>
    obtain rfl : vc = vc' := Option.some_inj.mp (hvc.symm.trans hed)
    have hb := hinv.editor vc hvc
    exact (CompareMainVC.saveData_written hinv.keys hb.loaded hb.two_le_colNum hb.colNum_le
      hsave.1 hsave.2.1 hdata).stored hf

/-- **Typed text.**  A text typed into a field and not typed over is what a
save stores there, except from a fifth, sixth or seventh row that was the last
one, when the next + tap added a column: there it is what was stored before. -/
theorem typed_text_saved (hs : Reachable s) (hvc : s.editor = some vc)
    (hrun : app.Run s ([.edit f text] ++ es ++ [.saveBtnDidTap now writes reads]) t)
    (hes : ∀ e ∈ es, e.inSession) (hun : Unedited es f)
    (hsave : (Event.saveBtnDidTap now writes reads).succeeds) :
    t.db.stored vc.groupId f = some
      (if 5 ≤ vc.rowNum ∧ f.row = some (vc.rowNum - 1) ∧ columnFirst es = true then
        (s.db.stored vc.groupId f).getD text else text) := by
  obtain ⟨u, hu, hlast⟩ := EventSystem.run_append_iff.mp hrun
  obtain ⟨u₀, hfirst, hrest⟩ := EventSystem.run_append_iff.mp hu
  obtain ⟨he, hstep⟩ := EventSystem.run_single_iff.mp hfirst
  obtain ⟨he', hstep'⟩ := EventSystem.run_single_iff.mp hlast
  have hinv₀ := hs.inv.step he hstep
  have hinvu : u.Inv := hinv₀.of_run hrest
  cases hs.inv.handled he hstep with
  | @edit vc' _ _ hed hf =>
    obtain rfl : vc = vc' := Option.some_inj.mp (hvc.symm.trans hed)
    obtain ⟨-, v, hv, (hg : v.groupId = vc.groupId), hcol, -, htexts⟩ :=
      hinv₀.drafted_of_run rfl hrest hes
    have hedited : (vc.edit f text).texts f = text :=
      (CompareMainVC.setText_apply ..).trans (if_pos rfl)
    have hvisible : (vc.edit f text).visible f := by
      cases f with
      | _ => exact hf
    have htext : v.texts f = _ :=
      (htexts f hun).trans (CompareMainVC.drafted_of_visible hvisible)
    rw [hedited] at htext
    have hwithin : f.Within v.colNum := by
      rw [hcol]
      exact (CompareMainVC.within_of_visible hvisible).mono (Nat.le_add_right _ _)
    have hstored := hinvu.stored_of_save hv hsave hwithin he' hstep'
    rwa [hg, htext] at hstored

end Typed

theorem unsavedFifthRow_saved_isSome : (app.exec App.init (unsavedFifthRow ++
    ([.edit (.itemTF 4) "b"] ++ [.addNewNameBtnDidTap .ok] ++
      [.saveBtnDidTap "" .ok .ok]))).isSome = true := by
  decide +kernel

theorem typed_text_saved_unsavedFifthRow : ∃ s t vc, app.Run App.init unsavedFifthRow s ∧
    s.editor = some vc ∧
    app.Run s ([.edit (.itemTF 4) "b"] ++ [.addNewNameBtnDidTap .ok] ++
      [.saveBtnDidTap "" .ok .ok]) t ∧
    t.db.stored vc.groupId (.itemTF 4) = some
      (if 5 ≤ vc.rowNum ∧ (Field.itemTF 4).row = some (vc.rowNum - 1) ∧
          columnFirst [.addNewNameBtnDidTap .ok] = true then
        (s.db.stored vc.groupId (.itemTF 4)).getD "b" else "b") := by
  have hrun := EventSystem.run_get_exec unsavedFifthRow_isSome
  obtain ⟨s, hs, ht⟩ := EventSystem.run_append_iff.mp
    (EventSystem.run_get_exec unsavedFifthRow_saved_isSome)
  obtain rfl := hs.det hrun
  have hed : ((app.exec App.init unsavedFifthRow).get unsavedFifthRow_isSome).editor.isSome =
      true := by decide
  obtain ⟨vc, hvc⟩ := Option.isSome_iff_exists.mp hed
  have hes : ∀ e ∈ [Event.addNewNameBtnDidTap .ok], e.inSession := by
    intro e he
    rw [List.mem_singleton.mp he]
    trivial
  have hun : Unedited [Event.addNewNameBtnDidTap .ok] (.itemTF 4) := by
    intro text hmem
    cases List.mem_singleton.mp hmem
  exact ⟨_, _, vc, hrun, hvc, ht,
    typed_text_saved ⟨_, hrun⟩ hvc ht hes hun ⟨rfl, fun _ => rfl, rfl, rfl⟩⟩

end HikakuKun
