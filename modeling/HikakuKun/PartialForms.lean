/-
The store as a map of forms, whatever fails.

While Realm operations succeed the tables refine a finite map of forms, each
with two columns or more.  Here any operation may throw: the map is still all
there is to the tables, but a save may put a part of a form, or nothing, and a
form with fewer than two columns is what a later save traps on.

* `Realm.formAt` — the form that the records of a group make;
* `App.failingOp`, `App.TrapsOn` — what an event does to the forms, and when its
  handler traps, told from the forms alone;
* `tables_refine_forms_failing` — along every run;
* `unwritten_group_unchanged` — the records of a group change only by a save or
  a delete of this group;
* `cut_short_group_frozen` — a comparison whose first save stopped before its
  second column is never written again: a save in its editor traps once the store
  is open.
-/
import HikakuKun.SaveRedisplay

namespace HikakuKun

/-- A form with its first `j` columns only. -/
def Form.takeColumns (j : ℕ) (form : Form) : Form := { form with columns := form.columns.take j }

namespace Writes

/-- How many of the first `n` columns an insert commits: those before the first
whose transaction throws. -/
def committedColumns (writes : Writes) (n : ℕ) : ℕ :=
  (List.range n).findIdx fun col => !writes.write (col + 1)

instance (writes : Writes) : Decidable writes.CommitsItem :=
  inferInstanceAs (Decidable (_ ∧ _))

variable {writes : Writes} {j n : ℕ}

theorem committedColumns_eq_self (h : ∀ i < n, writes.write (i + 1) = true) :
    writes.committedColumns n = n := by
  have hnone : (List.range n).findIdx (fun col => !writes.write (col + 1)) =
      (List.range n).length := by
    rw [List.findIdx_eq_length]
    intro col hcol
    rw [h col (List.mem_range.mp hcol)]
    rfl
  rw [committedColumns, hnone, List.length_range]

theorem committedColumns_eq (hj : j < n) (hbefore : ∀ i < j, writes.write (i + 1) = true)
    (hfail : writes.write (j + 1) = false) : writes.committedColumns n = j := by
  have hlt : j < (List.range n).length := by rwa [List.length_range]
  rw [committedColumns, List.findIdx_eq hlt]
  constructor
  · rw [List.getElem_range, hfail]
    rfl
  · intro i hi
    rw [List.getElem_range, hbefore i hi]
    rfl

end Writes

namespace Realm

/-- The form that the records of a group make. -/
def formAt (db : Realm) (g : ℤ) : Option Form :=
  (db.itemsOf g).head?.map fun item => formOf item (db.contentsOf g)

variable {db db' : Realm} {g : ℤ} {m : Forms}

theorem formAt_congr (hitems : db'.itemsOf g = db.itemsOf g)
    (hcontents : db'.contentsOf g = db.contentsOf g) : db'.formAt g = db.formAt g := by
  rw [formAt, formAt, hitems, hcontents]

theorem formAt_eq_none (hitems : db.itemsOf g = []) : db.formAt g = none := by
  rw [formAt, hitems]
  rfl

/-- The abstraction agrees with the refinement of runs without failures. -/
theorem Refines.formAt_eq (h : db.Refines m) (g : ℤ) : db.formAt g = m.lookup g := by
  have hg := h g
  cases hm : m.lookup g with
  | none =>
    rw [hm] at hg
    exact formAt_eq_none hg.1
  | some form =>
    rw [hm] at hg
    obtain ⟨-, -, item, hitem, rfl⟩ := hg
    rw [formAt, hitem]
    rfl

end Realm

/-! ### Saves -/

namespace CompareMainVC

open Realm

variable {vc : CompareMainVC} {now : String} {db db' : Realm} {writes : Writes} {j : ℕ}

/-- What a save puts: the whole form over a stored one, and of a new form the
columns that commit. -/
def saveOp (vc : CompareMainVC) (writes : Writes) (stored : Option Form) : FormOp :=
  if writes.CommitsItem then
    .put vc.groupId (if stored.isSome then vc.form
      else vc.form.takeColumns (writes.committedColumns vc.colNum))
  else .keep

theorem columnOf_colContents {c : ℕ} (hc : c < 5) :
    columnOf (vc.colContents now c) = vc.column ⟨c, hc⟩ :=
  congrArg columnOf (colContents_of_fin ⟨c, hc⟩)

/-- The columns written up to `j` are those of the form. -/
theorem map_columnOf_colContents (hj : j ≤ vc.colNum) (hfive : vc.colNum ≤ 5) :
    ((List.range j).map (vc.colContents now)).map columnOf = vc.form.columns.take j := by
  have hmin : min j vc.colNum = j := min_eq_left hj
  rw [form, ← List.map_take, List.take_take, hmin]
  refine List.ext_getElem ?_ fun i hi _ => ?_
  · simp only [List.length_map, List.length_range, List.length_take, List.length_finRange]
    omega
  · have hi : i < j := by simpa only [List.length_map, List.length_range] using hi
    simp only [List.getElem_map, List.getElem_range, List.getElem_take, List.getElem_finRange]
    exact columnOf_colContents (show i < 5 by omega)

/-- What was written up to column `j` is the form up to column `j`. -/
theorem Written.formAt (h : vc.Written now db db' j)
    (hlen : (db.contentsOf vc.groupId).length ≤ j) (hj : j ≤ vc.colNum) (hfive : vc.colNum ≤ 5) :
    db'.formAt vc.groupId = some (vc.form.takeColumns j) := by
  rw [Realm.formAt, h.items, List.head?_cons, Option.map_some, h.contents hlen, formOf,
    map_columnOf_colContents hj hfive]
  rfl

theorem takeColumns_form : vc.form.takeColumns vc.colNum = vc.form := by
  have hlen : vc.form.columns.length ≤ vc.colNum := by
    rw [form, List.length_map, List.length_take]
    exact min_le_left _ _
  rw [Form.takeColumns, List.take_of_length_le hlen]

/-- What a save that does not trap leaves behind, told from its writes: nothing
when the item transaction is not committed, else the columns that commit. -/
theorem saveData_committed {outcome : Except Realm Realm} (hb : vc.Bounded db) (hk : db.Keys)
    (h : vc.saveData now writes db = some outcome) :
    (¬ writes.CommitsItem ∧ Throwing.store outcome = db) ∨
    (writes.CommitsItem ∧ ∃ j, j = (if db.itemsOf vc.groupId = [] then
        writes.committedColumns vc.colNum else vc.colNum) ∧
      (db.contentsOf vc.groupId).length ≤ j ∧ j ≤ vc.colNum ∧
      vc.Written now db (Throwing.store outcome) j) := by
  by_cases hitems : db.itemsOf vc.groupId = []
  -- an insert commits the columns before the first that fails
  · have hcontents := (hk vc.groupId).contentsOf_eq_nil hitems
    have hlen : ∀ j, (db.contentsOf vc.groupId).length ≤ j := by
      intro j
      rw [hcontents]
      exact Nat.zero_le j
    rw [saveData_eq_insertData now writes hb.loaded hitems, Option.some_inj] at h
    subst h
    rw [if_pos hitems]
    rcases insertData_cases vc now writes db with
      ⟨hfail, heq⟩ | ⟨hopens, hitem, hall, heq⟩ | ⟨hopens, hitem, j, hj, hbefore, hfail, heq⟩
    · refine .inl ⟨?_, by rw [heq, Throwing.store_error]⟩
      rintro ⟨hopens, hitem⟩
      rw [hopens, hitem] at hfail
      exact hfail.elim Bool.noConfusion Bool.noConfusion
    · refine .inr ⟨⟨hopens, hitem⟩, vc.colNum, ?_, hlen _, le_rfl, ?_⟩
      · rw [Writes.committedColumns_eq_self hall]
      · rw [heq]
        exact inserted_written hitems hcontents _
    · refine .inr ⟨⟨hopens, hitem⟩, j, ?_, hlen _, hj.le, ?_⟩
      · rw [Writes.committedColumns_eq hj hbefore hfail]
      · rw [heq]
        exact inserted_written hitems hcontents _
  -- an update is one transaction
  · have hblock := updateBlock_eq now hk hitems hb.two_le_colNum hb.colNum_le
    rw [saveData_eq_write now writes hb.loaded hitems] at h
    rw [if_neg hitems]
    split at h
    case isFalse hopens =>
      cases h
      exact .inl ⟨fun hcommit => hopens hcommit.1, rfl⟩
    case isTrue hopens =>
      obtain ⟨db', hdb', hwrite⟩ := Option.map_eq_some_iff.mp h
      split at hblock
      case isFalse =>
        rw [hblock] at hdb'
        cases hdb'
      case isTrue =>
        obtain ⟨db'', heq, hw⟩ := hblock
        obtain rfl : db'' = db' := Option.some_inj.mp (heq.symm.trans hdb')
        subst hwrite
        cases hitem : writes.write 0 with
        | false =>
          exact .inl ⟨fun hcommit => Bool.noConfusion (hitem.symm.trans hcommit.2), rfl⟩
        | true => exact .inr ⟨⟨hopens, hitem⟩, vc.colNum, rfl, hb.stored_le, le_rfl, hw⟩

end CompareMainVC

/-! ### Steps -/

/-- The forms of the tables are those of the map, and the tables hold nothing
else: no second item record and no column without one. -/
structure Realm.HasForms (db : Realm) (m : Forms) : Prop where
  keys : db.Keys
  formAt_eq : ∀ g, db.formAt g = m.lookup g

theorem Realm.hasForms_empty : Realm.HasForms ⟨[], []⟩ ∅ := ⟨Realm.keys_empty, fun _ => rfl⟩

theorem Realm.HasForms.of_sameElsewhere {db db' : Realm} {m : Forms} {g : ℤ} {op : FormOp}
    (h : db.HasForms m) (hk : db'.Keys) (hsame : SameElsewhere g db db')
    (hop : op.group = some g) (hg : db'.formAt g = (op.apply m).lookup g) :
    db'.HasForms (op.apply m) := by
  refine ⟨hk, fun g' => ?_⟩
  by_cases hgg : g' = g
  · rw [hgg]
    exact hg
  · have hne : op.group ≠ some g' := by
      rw [hop]
      exact fun heq => hgg (Option.some_inj.mp heq).symm
    rw [FormOp.lookup_apply_of_ne hne, ← h.formAt_eq g']
    exact formAt_congr (hsame.items g' hgg) (hsame.contents g' hgg)

/-- All the Realm operations of a delete succeed. -/
def Delete.Commits (delete : Delete) : Prop :=
  delete.opens ∧ delete.items ∧ delete.contents ∧ delete.write

instance (delete : Delete) : Decidable delete.Commits :=
  inferInstanceAs (Decidable (_ ∧ _))

namespace App

/-- What an event does to the forms. -/
def failingOp (s : App) (m : Forms) : Event → FormOp
  | .saveBtnDidTap _ writes _ =>
    match s.editor with
    | some vc => vc.saveOp writes (m.lookup vc.groupId)
    | none => .keep
  | .confirmDelete row delete =>
    match s.list.groupIdList[row]? with
    | some g => if delete.Commits then .remove g else .keep
    | none => .keep
  | _ => .keep

/-- When the handler of an event traps: an editor is presented and cannot read
the store, or a save updates a form with fewer than two columns. -/
def TrapsOn (s : App) (m : Forms) : Event → Prop
  | .addNewHikakuBtnDidTap opens reads => opens = true ∧ ¬ reads.succeed
  | .didSelectRowAt _ _ reads => ¬ reads.succeed
  | .saveBtnDidTap _ writes _ => ∃ vc ∈ s.editor, writes.opens = true ∧
      ∃ form ∈ m.lookup vc.groupId, form.columns.length < 2
  | _ => False

/-- The group whose records an event writes, if it commits a transaction. -/
def writesGroup (s : App) : Event → Option ℤ
  | .saveBtnDidTap _ writes _ =>
    if writes.CommitsItem then s.editor.map (·.groupId) else none
  | .confirmDelete row delete => if delete.Commits then s.list.groupIdList[row]? else none
  | _ => none

variable {s s' t : App} {e : Event} {es : List Event} {m : Forms} {g : ℤ}

theorem group_failingOp (s : App) (m : Forms) (e : Event) :
    (s.failingOp m e).group = s.writesGroup e := by
  cases e with
  | saveBtnDidTap now writes reads =>
    rw [failingOp, writesGroup]
    cases s.editor with
    | none => exact (ite_self none).symm
    | some vc =>
      show (vc.saveOp writes _).group = _
      rw [CompareMainVC.saveOp]
      split_ifs <;> rfl
  | confirmDelete row delete =>
    rw [failingOp, writesGroup]
    cases s.list.groupIdList[row]? with
    | none => exact (ite_self none).symm
    | some g =>
      show (if _ then _ else _ : FormOp).group = _
      split_ifs <;> rfl
  | _ => rfl

/-- What an event that commits a transaction on group `g` does to the tables. -/
inductive Wrote (s : App) (g : ℤ) (db' : Realm) : Event → Prop
  | delete {row : ℕ} {delete : Delete} (hg : s.list.groupIdList[row]? = some g)
      (hcommit : delete.Commits) (hdb : db' = ViewController.deleteGroup g s.db) :
      Wrote s g db' (.confirmDelete row delete)
  | save {vc : CompareMainVC} {now : String} {writes : Writes} {reads : Reads} {j : ℕ}
      (hed : s.editor = some vc) (hg : vc.groupId = g) (hcommit : writes.CommitsItem)
      (hj : j = if s.db.itemsOf vc.groupId = [] then writes.committedColumns vc.colNum
        else vc.colNum)
      (hlen : (s.db.contentsOf vc.groupId).length ≤ j) (hle : j ≤ vc.colNum)
      (hw : vc.Written now s.db db' j) :
      Wrote s g db' (.saveBtnDidTap now writes reads)

theorem Wrote.sameElsewhere {db' : Realm} (h : s.Wrote g db' e) :
    Realm.SameElsewhere g s.db db' := by
  cases h with
  | delete hg hcommit hdb =>
    rw [hdb]
    exact Realm.deleteGroup_sameElsewhere
  | save hed hg hcommit hj hlen hle hw =>
    rw [← hg]
    exact hw.same

/-- A handler either commits no transaction and leaves the store as it was, or
commits on one group. -/
theorem Inv.written_step (hinv : s.Inv) (he : app.enabled s e) (hs : app.step s e = some s') :
    (s.writesGroup e = none ∧ s'.db = s.db) ∨
      ∃ g, s.writesGroup e = some g ∧ s.Wrote g s'.db e := by
  cases hinv.handled he hs with
  | notPresented reads => exact .inl ⟨rfl, rfl⟩
  | addNew hed hmax hreads => exact .inl ⟨rfl, rfl⟩
  | select hed hrow hg hreads => exact .inl ⟨rfl, rfl⟩
  | edit hed hf => exact .inl ⟨rfl, rfl⟩
  | addName hed hbtn => exact .inl ⟨rfl, rfl⟩
  | addItem hed hbtn => exact .inl ⟨rfl, rfl⟩
  | back => exact .inl ⟨rfl, rfl⟩
  | swipe => exact .inl ⟨rfl, rfl⟩
  | layout => exact .inl ⟨rfl, rfl⟩
  | launch => exact .inl ⟨rfl, rfl⟩
  | @delete row g delete hed hrow hg =>
    rw [writesGroup, hg]
    by_cases hcommit : delete.Commits
    · exact .inr ⟨g, if_pos hcommit, .delete hg hcommit (if_pos hcommit)⟩
    · exact .inl ⟨if_neg hcommit, if_neg hcommit⟩
  | @save vc now writes reads outcome hed hsave =>
    rw [writesGroup, hed]
    rcases CompareMainVC.saveData_committed (hinv.editor vc hed) hinv.keys hsave with
      ⟨hnot, hdb⟩ | ⟨hcommit, j, hj, hlen, hle, hw⟩
    · exact .inl ⟨if_neg hnot, hdb⟩
    · exact .inr ⟨vc.groupId, if_pos hcommit, .save hed rfl hcommit hj hlen hle hw⟩

/-- What a step that writes a group does. -/
theorem Inv.wrote (hinv : s.Inv) (hg : s.writesGroup e = some g) (he : app.enabled s e)
    (hs : app.step s e = some s') : s.Wrote g s'.db e := by
  rcases hinv.written_step he hs with ⟨hnone, -⟩ | ⟨g', hg', hw⟩
  · rw [hnone] at hg
    cases hg
  · obtain rfl : g = g' := Option.some_inj.mp (hg.symm.trans hg')
    exact hw

/-- The records of a group that a step does not write. -/
theorem Inv.unwritten_step (hinv : s.Inv) (hg : s.writesGroup e ≠ some g) (he : app.enabled s e)
    (hs : app.step s e = some s') :
    s'.db.itemsOf g = s.db.itemsOf g ∧ s'.db.contentsOf g = s.db.contentsOf g := by
  rcases hinv.written_step he hs with ⟨-, hdb⟩ | ⟨g', hg', hw⟩
  · rw [hdb]
    exact ⟨rfl, rfl⟩
  · have hne : g ≠ g' := fun h => hg (hg'.trans (congrArg some h.symm))
    exact ⟨hw.sameElsewhere.items g hne, hw.sameElsewhere.contents g hne⟩

theorem failingOp_eq_keep (h : s.writesGroup e = none) : s.failingOp m e = .keep := by
  have hgroup := group_failingOp s m e
  rw [h] at hgroup
  cases hop : s.failingOp m e with
  | keep => rfl
  | put g form =>
    rw [hop] at hgroup
    cases hgroup
  | remove g =>
    rw [hop] at hgroup
    cases hgroup

/-- **One step under failures.** -/
theorem Inv.hasForms_step (hinv : s.Inv) (hm : s.db.HasForms m) (he : app.enabled s e)
    (hs : app.step s e = some s') : s'.db.HasForms ((s.failingOp m e).apply m) := by
  rcases hinv.written_step he hs with ⟨hnone, hdb⟩ | ⟨g, hg, hwrote⟩
  · rw [failingOp_eq_keep hnone, hdb]
    exact hm
  refine hm.of_sameElsewhere (hinv.step he hs).keys hwrote.sameElsewhere
    ((group_failingOp s m e).trans hg) ?_
  cases hwrote with
  | @delete row delete hrow hcommit hdb =>
    have hop : s.failingOp m (.confirmDelete row delete) = .remove g := by
      rw [failingOp, hrow]
      exact if_pos hcommit
    rw [hdb, hop, FormOp.apply, Finmap.lookup_erase]
    exact Realm.formAt_eq_none Realm.itemsOf_deleteGroup
  | @save vc now writes reads j hed hvg hcommit hj hlen hle hw =>
    subst hvg
    have hop : s.failingOp m (.saveBtnDidTap now writes reads) =
        vc.saveOp writes (m.lookup vc.groupId) := by
      rw [failingOp, hed]
    rw [hop, CompareMainVC.saveOp, if_pos hcommit, FormOp.apply, Finmap.lookup_insert,
      hw.formAt hlen hle (hinv.editor vc hed).colNum_le, ← hm.formAt_eq vc.groupId, hj]
    -- the group is stored exactly when the map has a form
    by_cases hitems : s.db.itemsOf vc.groupId = []
    · rw [if_pos hitems, Realm.formAt_eq_none hitems]
      rfl
    · obtain ⟨item, hitem⟩ := (hinv.keys vc.groupId).exists_itemsOf_eq hitems
      rw [if_neg hitems, CompareMainVC.takeColumns_form, Realm.formAt, hitem]
      rfl

/-- The traps, told from the forms. -/
theorem Inv.step_eq_none_iff (hinv : s.Inv) (hm : s.db.HasForms m) (he : app.enabled s e) :
    app.step s e = none ↔ s.TrapsOn m e := by
  rw [← not_iff_not, ← Ne, hinv.step_ne_none_iff he]
  cases e with
  | addNewHikakuBtnDidTap opens reads =>
    exact ⟨fun hsafe hnot => hnot.2 (hsafe hnot.1), fun hnot hopens => by_contra fun h =>
      hnot ⟨hopens, h⟩⟩
  | didSelectRowAt row select reads => exact not_not.symm
  | saveBtnDidTap now writes reads =>
    have hform : ∀ g, (∃ form ∈ m.lookup g, form.columns.length < 2) ↔
        s.db.itemsOf g ≠ [] ∧ (s.db.contentsOf g).length < 2 := by
      intro g
      rw [← hm.formAt_eq g, Realm.formAt]
      cases hitems : s.db.itemsOf g with
      | nil => simp only [List.head?_nil, Option.map_none, Option.not_mem_none, false_and,
          exists_false, ne_eq, not_true_eq_false]
      | cons item items =>
        simp only [List.head?_cons, Option.map_some, Option.mem_some_iff, exists_eq_left',
          Realm.formOf, List.length_map, ne_eq, reduceCtorEq, not_false_eq_true, true_and]
    rw [TrapsOn, SafeIn]
    constructor
    · rintro hsafe ⟨vc, hvc, hopens, hbroken⟩
      obtain ⟨hitems, hlen⟩ := (hform vc.groupId).mp hbroken
      have := hsafe vc hvc hopens hitems
      omega
    · intro hnot vc hvc hopens hitems
      by_contra hlen
      exact hnot ⟨vc, hvc, hopens, (hform vc.groupId).mpr ⟨hitems, by omega⟩⟩
  | confirmDelete row delete => exact iff_of_true trivial not_false
  | edit field text => exact iff_of_true trivial not_false
  | addNewNameBtnDidTap reads => exact iff_of_true trivial not_false
  | addNewItemBtnDidTap reads => exact iff_of_true trivial not_false
  | backBtnDidTap opens => exact iff_of_true trivial not_false
  | swipeDown => exact iff_of_true trivial not_false
  | layoutSubviews width => exact iff_of_true trivial not_false
  | launch opens => exact iff_of_true trivial not_false

end App

/-! ### Runs -/

/-- The forms after a run in which anything may fail. -/
def formsLeft (es : List Event) : Forms :=
  app.track (fun s e m => (s.failingOp m e).apply m) App.init es ∅

theorem hasForms_of_run {es : List Event} {s : App} (hrun : app.Run App.init es s) :
    s.Inv ∧ s.db.HasForms (formsLeft es) :=
  hrun.refines (R := fun s m => s.Inv ∧ s.db.HasForms m) (P := fun _ => True)
    (fun ⟨hi, hm⟩ _ he hs => ⟨hi.step he hs, hi.hasForms_step hm he hs⟩) (fun _ _ => trivial)
    ⟨App.inv_init, Realm.hasForms_empty⟩

/-- Without failures the two maps are one. -/
theorem formsLeft_eq_formsAfter {es : List Event} {s : App} (hrun : app.Run App.init es s)
    (hok : ∀ e ∈ es, e.succeeds) : formsLeft es = formsAfter es := by
  obtain ⟨-, hleft⟩ := hasForms_of_run hrun
  obtain ⟨-, hafter⟩ := refines_of_run hrun hok
  exact Finmap.ext_lookup fun g => (hleft.formAt_eq g).symm.trans (hafter.formAt_eq g)

/-- **The forms under failures.**  Along every run, whatever fails, the tables
make the forms of the map, which without failures is the one of the saves and
deletes; an event that can happen next traps exactly when the map says so, and if
it does not, does to the tables what its operation does to the forms, and nothing
to the records of another group. -/
theorem tables_refine_forms_failing {es : List Event} {s : App} (hrun : app.Run App.init es s) :
    s.db.HasForms (formsLeft es) ∧ ((∀ e ∈ es, e.succeeds) → formsLeft es = formsAfter es) ∧
    ∀ e, app.enabled s e → (app.step s e = none ↔ s.TrapsOn (formsLeft es) e) ∧
      ∀ s', app.step s e = some s' →
        s'.db.HasForms ((s.failingOp (formsLeft es) e).apply (formsLeft es)) ∧
        ∀ g, (s.failingOp (formsLeft es) e).group ≠ some g →
          s'.db.itemsOf g = s.db.itemsOf g ∧ s'.db.contentsOf g = s.db.contentsOf g := by
  obtain ⟨hinv, hm⟩ := hasForms_of_run hrun
  refine ⟨hm, formsLeft_eq_formsAfter hrun, fun e he => ?_⟩
  refine ⟨hinv.step_eq_none_iff hm he, fun s' hs => ?_⟩
  refine ⟨hinv.hasForms_step hm he hs, fun g hg => hinv.unwritten_step ?_ he hs⟩
  rwa [← App.group_failingOp s (formsLeft es) e]

theorem tables_refine_forms_failing_partialSave : ∃ s, app.Run App.init partialSave s ∧
    s.db.itemsOf 1 ≠ [] ∧ s.db.HasForms (formsLeft partialSave) ∧
    ∀ e, app.enabled s e → (app.step s e = none ↔ s.TrapsOn (formsLeft partialSave) e) ∧
      ∀ s', app.step s e = some s' →
        s'.db.HasForms ((s.failingOp (formsLeft partialSave) e).apply (formsLeft partialSave)) ∧
        ∀ g, (s.failingOp (formsLeft partialSave) e).group ≠ some g →
          s'.db.itemsOf g = s.db.itemsOf g ∧ s'.db.contentsOf g = s.db.contentsOf g := by
  have hrun := EventSystem.run_get_exec partialSave_isSome
  obtain ⟨hm, -, hnext⟩ := tables_refine_forms_failing hrun
  exact ⟨_, hrun, by decide +kernel, hm, hnext⟩

/-! ### Groups that are not written -/

section Unwritten

variable {s t : App} {es : List Event} {g : ℤ}

/-- The records of a group along a run, if no step writes them as they are. -/
theorem App.Inv.unwritten_of_run {P : App → Event → Prop} (hinv : s.Inv) (hrun : app.Run s es t)
    (halong : app.AlongRun P s es)
    (hP : ∀ {u u' : App} {e : Event}, u.Inv → u.db.itemsOf g = s.db.itemsOf g →
      u.db.contentsOf g = s.db.contentsOf g → P u e → app.enabled u e →
      app.step u e = some u' → u.writesGroup e ≠ some g) :
    t.db.itemsOf g = s.db.itemsOf g ∧ t.db.contentsOf g = s.db.contentsOf g := by
  have hboth : t.Inv ∧ t.db.itemsOf g = s.db.itemsOf g ∧ t.db.contentsOf g = s.db.contentsOf g :=
    hrun.invariant_along (I := fun u => u.Inv ∧ u.db.itemsOf g = s.db.itemsOf g ∧
        u.db.contentsOf g = s.db.contentsOf g)
      (fun ⟨hi, hitems, hcontents⟩ hPe he hstep => by
        have hg := hP hi hitems hcontents hPe he hstep
        obtain ⟨hitems', hcontents'⟩ := hi.unwritten_step hg he hstep
        exact ⟨hi.step he hstep, hitems'.trans hitems, hcontents'.trans hcontents⟩)
      halong ⟨hinv, rfl, rfl⟩
  exact hboth.2

/-- **Other groups.**  Along every run in which no save in an editor on a group
commits its item and no delete of the group commits, its records stay as they
were. -/
theorem unwritten_group_unchanged (hs : Reachable s) (hrun : app.Run s es t)
    (h : app.AlongRun (fun s e => s.writesGroup e ≠ some g) s es) :
    t.db.itemsOf g = s.db.itemsOf g ∧ t.db.contentsOf g = s.db.contentsOf g :=
  hs.inv.unwritten_of_run hrun h fun _ _ _ hg _ _ => hg

/-- The editor of the cut short comparison is left, and a second comparison saved. -/
def secondComparison : List Event :=
  [.backBtnDidTap true, .addNewHikakuBtnDidTap true .ok, .saveBtnDidTap "" .ok .ok]

theorem secondComparison_isSome :
    (app.exec App.init (partialSave ++ secondComparison)).isSome = true := by decide

theorem unwritten_group_unchanged_secondComparison : ∃ s t, app.Run App.init partialSave s ∧
    app.Run s secondComparison t ∧ t.db.itemsOf 1 = s.db.itemsOf 1 ∧
    t.db.contentsOf 1 = s.db.contentsOf 1 := by
  obtain ⟨s, hs, ht⟩ :=
    EventSystem.run_append_iff.mp (EventSystem.run_get_exec secondComparison_isSome)
  obtain rfl := hs.det (EventSystem.run_get_exec partialSave_isSome)
  have halong : app.AlongRun (fun s e => s.writesGroup e ≠ some 1)
      ((app.exec App.init partialSave).get partialSave_isSome) secondComparison := by
    decide +kernel
  exact ⟨_, _, hs, ht, unwritten_group_unchanged ⟨_, hs⟩ ht halong⟩

/-- A comparison whose first save stopped before its second column. -/
def Realm.CutShort (db : Realm) (g : ℤ) : Prop :=
  db.itemsOf g ≠ [] ∧ (db.contentsOf g).length < 2

theorem Realm.CutShort.of_eq {db db' : Realm} (h : db.CutShort g)
    (hitems : db'.itemsOf g = db.itemsOf g) (hcontents : db'.contentsOf g = db.contentsOf g) :
    db'.CutShort g := by
  rw [CutShort, hitems, hcontents]
  exact h

/-- No delete of the group commits. -/
def App.NotDeleting (g : ℤ) (s : App) (e : Event) : Prop :=
  ∀ row delete, e = .confirmDelete row delete → s.writesGroup e ≠ some g

/-- A save updates what was cut short, and unwraps a column that is not there. -/
theorem App.Inv.cutShort_save (hinv : s.Inv) {vc : CompareMainVC} (hed : s.editor = some vc)
    (hcut : s.db.CutShort vc.groupId) (now : String) (writes : Writes) (reads : Reads) :
    app.step s (.saveBtnDidTap now writes reads) = none ↔ writes.opens = true := by
  have henabled : app.enabled s (.saveBtnDidTap now writes reads) := by
    show s.editor.isSome = true
    rw [hed]
    rfl
  rw [← not_iff_not, ← Ne, hinv.step_ne_none_iff henabled]
  constructor
  · intro hsafe hopens
    have htwo := hsafe vc hed hopens hcut.1
    have := hcut.2
    omega
  · intro hnot vc' _ hopens
    exact absurd hopens hnot

/-- So no step writes it but a delete. -/
theorem App.Inv.cutShort_step {s' : App} {e : Event} (hinv : s.Inv) (hcut : s.db.CutShort g)
    (hdel : s.NotDeleting g e) (he : app.enabled s e) (hs : app.step s e = some s') :
    s.writesGroup e ≠ some g := by
  cases e with
  | saveBtnDidTap now writes reads =>
    intro hg
    rw [writesGroup, Option.ite_none_right_eq_some] at hg
    obtain ⟨hcommit, hg⟩ := hg
    obtain ⟨vc, hed, rfl⟩ := Option.map_eq_some_iff.mp hg
    -- a save that commits its item has opened the store
    have htrap := (hinv.cutShort_save hed hcut now writes reads).mpr hcommit.1
    rw [hs] at htrap
    cases htrap
  | confirmDelete row delete => exact hdel row delete rfl
  | _ => exact (Option.some_ne_none g).symm

/-- **Comparisons cut short.**  A comparison stored with fewer than two columns
is never written again: along every run without a delete of it that commits, its
records stay as they were; and a save in an editor on it traps exactly when it
opens the store, and otherwise leaves the store as it was. -/
theorem cut_short_group_frozen (hs : Reachable s) (hcut : s.db.CutShort g)
    (hrun : app.Run s es t) (hdel : app.AlongRun (App.NotDeleting g) s es) :
    t.db.itemsOf g = s.db.itemsOf g ∧ t.db.contentsOf g = s.db.contentsOf g ∧
    ∀ vc now writes reads, t.editor = some vc → vc.groupId = g →
      (app.step t (.saveBtnDidTap now writes reads) = none ↔ writes.opens = true) ∧
      ∀ u, app.Run t [.saveBtnDidTap now writes reads] u → u.db = t.db := by
  obtain ⟨hitems, hcontents⟩ :=
    hs.inv.unwritten_of_run hrun hdel fun hinv hitems hcontents hnot he hstep =>
      hinv.cutShort_step (hcut.of_eq hitems hcontents) hnot he hstep
  have hinv := hs.inv.of_run hrun
  have hcut' := hcut.of_eq hitems hcontents
  refine ⟨hitems, hcontents, ?_⟩
  rintro vc now writes reads hed rfl
  have htrap := hinv.cutShort_save hed hcut' now writes reads
  refine ⟨htrap, fun u hu => ?_⟩
  obtain ⟨he, hstep⟩ := EventSystem.run_single_iff.mp hu
  have hunopened : ¬ writes.CommitsItem := by
    intro hcommit
    rw [htrap.mpr hcommit.1] at hstep
    cases hstep
  rcases hinv.written_step he hstep with ⟨-, hdb⟩ | ⟨g', hg', -⟩
  · exact hdb
  · rw [App.writesGroup, if_neg hunopened] at hg'
    cases hg'

/-- The cut short comparison is opened again, and saved with a store that does
not open. -/
def reopenedCutShort : List Event :=
  [.backBtnDidTap true, .didSelectRowAt 0 .ok .ok,
    .saveBtnDidTap "" ⟨false, fun _ => true⟩ .ok]

theorem reopenedCutShort_isSome :
    (app.exec App.init (partialSave ++ reopenedCutShort)).isSome = true := by decide +kernel

theorem cut_short_group_frozen_partialSave : ∃ s t vc, app.Run App.init partialSave s ∧
    s.db.CutShort 1 ∧ app.Run s reopenedCutShort t ∧ t.editor = some vc ∧ vc.groupId = 1 ∧
    t.db.itemsOf 1 = s.db.itemsOf 1 ∧ t.db.contentsOf 1 = s.db.contentsOf 1 ∧
    ∀ now writes reads,
      (app.step t (.saveBtnDidTap now writes reads) = none ↔ writes.opens = true) ∧
      ∀ u, app.Run t [.saveBtnDidTap now writes reads] u → u.db = t.db := by
  obtain ⟨s, hs, ht⟩ :=
    EventSystem.run_append_iff.mp (EventSystem.run_get_exec reopenedCutShort_isSome)
  obtain rfl := hs.det (EventSystem.run_get_exec partialSave_isSome)
  have hcut : ((app.exec App.init partialSave).get partialSave_isSome).db.CutShort 1 :=
    ⟨by decide, by decide⟩
  have hdel : app.AlongRun (App.NotDeleting 1) ((app.exec App.init partialSave).get
      partialSave_isSome) reopenedCutShort := by
    refine EventSystem.alongRun_of_forall fun e he s row delete heq => ?_
    subst heq
    simp [reopenedCutShort] at he
  have hed : ((app.exec App.init (partialSave ++ reopenedCutShort)).get
      reopenedCutShort_isSome).editor.map (·.groupId) = some 1 := by
    decide +kernel
  obtain ⟨vc, hvc, hg⟩ := Option.map_eq_some_iff.mp hed
  obtain ⟨hitems, hcontents, hsaves⟩ := cut_short_group_frozen ⟨_, hs⟩ hcut ht hdel
  exact ⟨_, _, vc, hs, hcut, ht, hvc, hg, hitems, hcontents,
    fun now writes reads => hsaves vc now writes reads hvc hg⟩

end Unwritten

end HikakuKun
