/-
What is never lost.

A stored text can be replaced without being typed over: an editor that did not
load it saves a blank.  Only the opening of a row can leave a stored text out;
later loads, taps and saves of the editor keep what it shows.  So a field keeps
its text along all runs exactly when every opening loads it.

* `App.Inv.retains_step` — what a step keeps, unless it opens the group;
* `retained_of_loads`, `Retained.kept` — a field that every opening loads is
  retained, and what is retained was loaded;
* `retained_iff_of_selects`, `retained_iff` — which fields these are, as long as
  the list screen can read the store.
-/
import HikakuKun.Attainable
import HikakuKun.Provenance
import HikakuKun.Reopening

namespace HikakuKun

open CompareMainVC (fresh)

/-- The text is stored, and an editor on the group shows it. -/
structure App.Retains (g : ℤ) (f : Field) (v : String) (s : App) : Prop where
  stored : s.db.stored g f = some v
  shown : ∀ vc ∈ s.editor, vc.groupId = g → vc.texts f = v

/-- The event types nothing into the field of an editor on the group. -/
def App.NotTyping (g : ℤ) (f : Field) (s : App) (e : Event) : Prop :=
  ∀ text, e = .edit f text → ∀ vc ∈ s.editor, vc.groupId ≠ g

/-- If the event opens the group, text stored for the field is loaded. -/
def App.Loads (g : ℤ) (f : Field) (s : App) (e : Event) : Prop :=
  ∀ row select reads, e = .didSelectRowAt row select reads →
    s.list.groupIdList[row]? = some g → s.db.NonBlank g f →
      Kept s.db g (App.selectedRowNum s.db g select) (App.selectedRowNum s.db g select) f

/-- A tap keeps a text that is the stored one. -/
theorem CompareMainVC.tapped_texts_of_stored {vc : CompareMainVC} {reads : Reads} {width : ℚ}
    {db : Realm} {f : Field} {v : String} (hstored : db.stored vc.groupId f = some v)
    (htext : vc.texts f = v) : (vc.tapped reads width db).texts f = v := by
  subst htext
  have hload : reloaded db vc.groupId (vc.loadedColNum reads db) vc.rowNum vc.texts f =
      vc.texts f := reloaded_eq_self hstored
  show (if Restored vc.rowNum f then vc.texts f else reloaded _ _ _ _ _ f) = _
  rw [hload, ite_self]

namespace App

variable {s s' : App} {e : Event} {g : ℤ} {f : Field} {v : String}

/-! ### One step -/

theorem Inv.itemsOf_ne_nil (hinv : s.Inv) (h : s.db.stored g f = some v) :
    s.db.itemsOf g ≠ [] := by
  intro hnil
  rw [(hinv.keys g).stored_eq_none hnil f] at h
  cases h

/-- The store part: a save writes what the editor shows. -/
theorem Inv.stored_step (hinv : s.Inv) (h : s.Retains g f v) (hdel : s.NotDeleting g e)
    (he : app.enabled s e) (hs : app.step s e = some s') : s'.db.stored g f = some v := by
  by_cases hg : s.writesGroup e = some g
  · cases hinv.wrote hg he hs with
    | delete hrow hcommit hdb => exact absurd hg (hdel _ _ rfl)
    | @save vc now writes reads j hed hvg hcommit hj hlen hle hw =>
      subst hvg
      have hwithin := Realm.within_of_stored (hinv.keys vc.groupId).numbered h.stored
      rw [hw.stored (hwithin.mono hlen), h.shown vc hed rfl]
  · obtain ⟨hitems, hcontents⟩ := hinv.unwritten_step hg he hs
    rw [Realm.stored_congr hitems hcontents]
    exact h.stored

/-- What a step keeps, unless it opens the group. -/
theorem Inv.retains_step (hinv : s.Inv) (h : s.Retains g f v) (hdel : s.NotDeleting g e)
    (htype : s.NotTyping g f e) (hload : s.Loads g f e) (he : app.enabled s e)
    (hs : app.step s e = some s') : s'.Retains g f v := by
  have hstored := hinv.stored_step h hdel he hs
  refine ⟨hstored, ?_⟩
  intro vc' hvc' hg
  cases hinv.handled he hs with
  | notPresented reads => exact h.shown vc' hvc' hg
  | addNew hed hmax hreads =>
    -- the new group is not one that is stored
    obtain rfl := Option.some_inj.mp hvc'
    obtain ⟨item, hitem⟩ := List.exists_mem_of_ne_nil _ (hinv.itemsOf_ne_nil h.stored)
    obtain ⟨hmem, hid⟩ := Realm.mem_itemsOf.mp hitem
    have hle := CompareItemRealm.le_getMaxGroupId hmax hmem
    have hnew : _ + 1 = g := hg
    omega
  | @select row g' select reads hed hrow hg' hreads =>
    obtain rfl := Option.some_inj.mp hvc'
    obtain rfl : g' = g := hg
    have hwithin := Realm.within_of_stored (hinv.keys g').numbered h.stored
    have hb := fresh_bounded hinv.keys g' (@selectedRowNum_mem s.db g' select) hreads s.width
    have htext := @keptText_reloaded s.db g' (selectedRowNum s.db g' select) f v _ h.stored
      (hwithin.mono hb.stored_le)
    exact (htext.eq_iff h.stored).mpr (hload row select reads rfl hg')
  | delete hed hrow hg' => exact absurd (hed.symm.trans hvc') (Option.some_ne_none vc').symm
  | @edit vc field text hed hf =>
    obtain rfl := Option.some_inj.mp hvc'
    have hne : f ≠ field := by
      rintro rfl
      exact htype text rfl vc hed hg
    have htext : (vc.edit field text).texts f = if f = field then text else vc.texts f :=
      CompareMainVC.setText_apply vc.texts field f (some text)
    rw [htext, if_neg hne]
    exact h.shown vc hed hg
  | @addName vc reads hed hbtn =>
    obtain rfl := Option.some_inj.mp hvc'
    obtain rfl : vc.groupId = g := hg
    exact @CompareMainVC.tapped_texts_of_stored { vc with colNum := vc.colNum + 1 } _ _ _ _ _
      h.stored (h.shown vc hed rfl)
  | @addItem vc reads hed hbtn =>
    obtain rfl := Option.some_inj.mp hvc'
    obtain rfl : vc.groupId = g := hg
    exact @CompareMainVC.tapped_texts_of_stored { vc with rowNum := vc.rowNum + 1 } _ _ _ _ _
      h.stored (h.shown vc hed rfl)
  | @save vc now writes reads outcome hed hsave =>
    obtain rfl := Option.some_inj.mp hvc'
    obtain rfl : vc.groupId = g := hg
    have hshown := h.shown vc hed rfl
    subst hshown
    exact CompareMainVC.reloaded_eq_self hstored
  | back => cases hvc'
  | swipe => cases hvc'
  | layout => exact h.shown vc' hvc' hg
  | launch => cases hvc'

end App

/-! ### Runs -/

/-- An event of `P` that neither deletes the group nor types into the field. -/
def App.Spares (P : Event → Prop) (g : ℤ) (f : Field) (s : App) (e : Event) : Prop :=
  P e ∧ s.NotDeleting g e ∧ s.NotTyping g f e

/-- Along every run of events of `P`, from every state the app reaches, the
stored text of the field stays, if it is neither deleted nor typed over. -/
def Retained (P : Event → Prop) (f : Field) : Prop :=
  ∀ s t es g v, Reachable s → s.Retains g f v → app.Run s es t →
    app.AlongRun (App.Spares P g f) s es → t.db.stored g f = some v

section Retained

variable {P : Event → Prop} {s : App} {g : ℤ} {f : Field} {select : Reads}

/-- A field that every opening loads is retained. -/
theorem retained_of_loads (h : ∀ s e g, Reachable s → P e → s.Loads g f e) : Retained P f := by
  intro s t es g v hs hretains hrun halong
  have hboth : Reachable t ∧ t.Retains g f v :=
    hrun.invariant_along (I := fun u => Reachable u ∧ u.Retains g f v)
      (fun ⟨hu, hi⟩ ⟨hP, hdel, htype⟩ he hstep => by
        have hi' := hu.inv.retains_step hi hdel htype (h _ _ g hu hP) he hstep
        obtain ⟨fs, hfs⟩ := hu
        exact ⟨⟨_, hfs.snoc he hstep⟩, hi'⟩)
      halong ⟨hs, hretains⟩
  exact hboth.2.stored

/-- A stored comparison is opened and saved, untouched. -/
theorem App.Inv.exists_run_resaved (hinv : s.Inv) (hitems : s.db.itemsOf g ≠ [])
    (htwo : 2 ≤ (s.db.contentsOf g).length) (select : Reads) :
    ∃ row t, app.Run s.launched [.didSelectRowAt row select .ok, .saveBtnDidTap "" .ok .ok] t ∧
      ∀ f v, s.db.stored g f = some v → ∃ text, t.db.stored g f = some text ∧
        KeptText s.db g (App.selectedRowNum s.db g select) (App.selectedRowNum s.db g select)
          f v text := by
  obtain ⟨row, hrow, hg⟩ := App.exists_row_of_stored hitems
  have hlaunched : s.launched.Inv := hinv.of_run App.run_launch
  have hstep := @App.didSelectRowAt_eq s.launched hlaunched row g hg select .ok
  rw [if_pos ⟨rfl, rfl⟩] at hstep
  have henabled : app.enabled s.launched (.didSelectRowAt row select .ok) := ⟨rfl, hrow⟩
  have hopened := @inSession_of_select _ (fun _ => True) _ _ hlaunched row select .ok hg henabled
    hstep
  have hinv' := hlaunched.step henabled hstep
  -- two columns are stored, so the save does not trap
  obtain ⟨outcome, hsave⟩ := hinv'.exists_saveData rfl (fun _ => htwo) "" .ok
  have hrun := hinv'.run_save rfl hsave .ok
  obtain ⟨he, hs⟩ := EventSystem.run_single_iff.mp hrun
  have hafter := hopened.save hinv' ⟨rfl, fun _ => rfl, rfl, rfl⟩ he hs
  exact ⟨row, _, .cons henabled hstep hrun, fun f v hv => hafter f v trivial hv⟩

/-- What is retained was loaded. -/
theorem Retained.kept (h : Retained P f) (hselect : ∀ row, P (.didSelectRowAt row select .ok))
    (hsave : P (.saveBtnDidTap "" .ok .ok)) (hs : Reachable s)
    (htwo : 2 ≤ (s.db.contentsOf g).length) (hblank : s.db.NonBlank g f) :
    Kept s.db g (App.selectedRowNum s.db g select) (App.selectedRowNum s.db g select) f := by
  obtain ⟨v, hv, hne⟩ := hblank
  obtain ⟨row, t, hrun, hafter⟩ :=
    hs.inv.exists_run_resaved (hs.inv.itemsOf_ne_nil hv) htwo select
  obtain ⟨text, htext, hkept⟩ := hafter f v hv
  have hlaunched : Reachable s.launched := by
    obtain ⟨es, hes⟩ := hs
    exact ⟨_, hes.append App.run_launch⟩
  have hretains : s.launched.Retains g f v := ⟨hv, fun vc hvc => by cases hvc⟩
  have hstays := h s.launched t _ g v hlaunched hretains hrun
    ⟨⟨hselect row, fun _ _ => Event.noConfusion, fun _ => Event.noConfusion⟩, fun _ _ =>
      ⟨⟨hsave, fun _ _ => Event.noConfusion, fun _ => Event.noConfusion⟩, fun _ _ => trivial⟩⟩
  have heq : text = v := Option.some_inj.mp (htext.symm.trans hstays)
  exact (hkept.eq_iff hv).mp heq ⟨v, hv, hne⟩

end Retained

/-! ### One text in an otherwise blank comparison -/

/-- The stored texts of a group are those of its form. -/
theorem Realm.stored_of_formAt {db : Realm} {g : ℤ} {form : Form} (hk : db.GroupKeys g)
    (h : db.formAt g = some form) {f : Field} (hf : f.Within form.columns.length) :
    db.stored g f = some (form.text f) := by
  obtain ⟨item, hitem, rfl⟩ := Option.map_eq_some_iff.mp h
  have hcolumn : ∀ c : Fin 5, c.val < (db.contentsOf g).length →
      ∃ content, CompareContentsRealm.firstWithId (db.contentsOf g) c = some content ∧
        (formOf item (db.contentsOf g)).columns[c.val]? = some (columnOf content) := by
    intro c hc
    refine ⟨(db.contentsOf g)[c.val], ?_, ?_⟩
    · rw [hk.numbered.firstWithId, List.getElem?_eq_getElem hc]
    · show ((db.contentsOf g).map columnOf)[c.val]? = _
      rw [List.getElem?_map, List.getElem?_eq_getElem hc]
      rfl
  have hlen : (formOf item (db.contentsOf g)).columns.length = (db.contentsOf g).length :=
    List.length_map _
  rw [hlen] at hf
  cases f with
  | groupNameTF =>
    rw [stored, hitem]
    rfl
  | itemTF k =>
    rw [stored, hitem]
    rfl
  | nameTF c =>
    obtain ⟨content, hcontent, hget⟩ := hcolumn c hf
    rw [stored, hcontent, Form.text, hget]
    rfl
  | contentTF c k =>
    obtain ⟨content, hcontent, hget⟩ := hcolumn c hf
    rw [stored, hcontent, Form.text, hget]
    rfl
  | memoTV c =>
    obtain ⟨content, hcontent, hget⟩ := hcolumn c hf
    rw [stored, hcontent, Form.text, hget]
    rfl

/-- The form of five columns with these texts. -/
def Form.ofTexts (t : Texts) : Form where
  title := t .groupNameTF
  heading k := t (.itemTF k)
  columns := (List.finRange 5).map fun c =>
    ⟨t (.nameTF c), fun k => t (.contentTF c k), t (.memoTV c)⟩

theorem Form.length_ofTexts (t : Texts) : (ofTexts t).columns.length = 5 := by
  rw [ofTexts, List.length_map, List.length_finRange]

theorem Form.text_ofTexts (t : Texts) (f : Field) : (ofTexts t).text f = t f := by
  have hget : ∀ c : Fin 5, (ofTexts t).columns[c.val]? =
      some ⟨t (.nameTF c), fun k => t (.contentTF c k), t (.memoTV c)⟩ := by
    intro c
    have hc : c.val < (List.finRange 5).length := by
      rw [List.length_finRange]
      exact c.isLt
    rw [ofTexts, List.getElem?_map, List.getElem?_eq_getElem hc, List.getElem_finRange]
    rfl
  cases f with
  | groupNameTF => rfl
  | itemTF k => rfl
  | nameTF c => rw [text, hget, Option.map_some, Option.getD_some]
  | contentTF c k => rw [text, hget, Option.map_some, Option.getD_some]
  | memoTV c => rw [text, hget, Option.map_some, Option.getD_some]

theorem Field.within_five (f : Field) : f.Within 5 := by
  cases f with
  | groupNameTF => trivial
  | itemTF k => trivial
  | nameTF c => exact c.isLt
  | contentTF c k => exact c.isLt
  | memoTV c => exact c.isLt

/-- Any one field can be the only one with text. -/
theorem exists_reachable_only (f : Field) : ∃ s g, Reachable s ∧
    (s.db.contentsOf g).length = 5 ∧ ∀ f', s.db.NonBlank g f' ↔ f' = f := by
  have hwide : maxColumns 800 = 5 := by decide
  have hlen := Form.length_ofTexts fun f' => if f' = f then "a" else ""
  obtain ⟨es, s, g, hrun, -, hform⟩ :=
    @exists_run_formAt 800 _ (hlen.symm ▸ (by omega)) (hlen.le.trans hwide.ge)
  have hs : Reachable s := ⟨es, hrun⟩
  refine ⟨s, g, hs, ((Realm.length_columns hform).2.symm.trans hlen), fun f' => ?_⟩
  have hstored := Realm.stored_of_formAt (hs.inv.keys g) hform (f := f')
    (hlen.symm ▸ f'.within_five)
  rw [Form.text_ofTexts] at hstored
  constructor
  · rintro ⟨v, hv, hne⟩
    by_contra hother
    rw [hstored, if_neg hother] at hv
    exact hne (Option.some_inj.mp hv).symm
  · rintro rfl
    rw [if_pos rfl] at hstored
    exact ⟨"a", hstored, by decide⟩

/-! ### The fields -/

/-- The title, the names, the memos, and the first row without its first two
cells. -/
def Field.AlwaysLoaded : Field → Prop
  | .itemTF k => k = 0
  | .contentTF c k => k = 0 ∧ 2 ≤ c.val
  | _ => True

/-- All but the cells of the first column and the first cell of the second. -/
def Field.LoadedOnSuccess : Field → Prop
  | .contentTF c k => c ≠ 0 ∧ (k = 0 → c ≠ 1)
  | _ => True

section Fields

variable {db : Realm} {g : ℤ} {r₀ : ℕ} {f : Field}

theorem kept_of_alwaysLoaded (hf : f.AlwaysLoaded) : Kept db g r₀ r₀ f := by
  cases f with
  | groupNameTF => trivial
  | nameTF c => trivial
  | memoTV c => trivial
  | itemTF k => exact .inl hf
  | contentTF c k =>
    obtain ⟨rfl, hc⟩ := hf
    exact kept_first_iff.mpr fun hlt => absurd hlt (by omega)

theorem kept_of_loadedOnSuccess (hk : db.GroupKeys g) (hitems : db.itemsOf g ≠ [])
    (hf : f.LoadedOnSuccess) (hblank : db.NonBlank g f) :
    Kept db g (App.selectedRowNum db g .ok) (App.selectedRowNum db g .ok) f := by
  rcases row_cases f with ⟨k, hpos, hrow⟩ | hzero
  -- outside the first column the list screen counts the row
  · obtain ⟨j, rfl, -⟩ := Field.row_eq_some_iff.mp hrow
    have h0 : j ≠ 0 := by
      rintro rfl
      exact Nat.lt_irrefl 0 hpos
    have hcol : ∀ i, f ≠ .contentTF 0 i := by
      rintro i rfl
      exact hf.1 rfl
    exact (kept_of_row hrow hpos).mpr (.inl ((ViewController.lt_idNum_iff hk hitems h0).mpr
      (rowShown_of_nonBlank hk hrow hcol hblank)))
  · refine kept_of_alwaysLoaded ?_
    cases f with
    | groupNameTF => trivial
    | nameTF c => trivial
    | memoTV c => trivial
    | itemTF k => exact Fin.ext (hzero k rfl)
    | contentTF c k =>
      have hk0 : k = 0 := Fin.ext (hzero k rfl)
      have hc0 : c.val ≠ 0 := fun h => hf.1 (Fin.ext h)
      have hc1 : c.val ≠ 1 := fun h => hf.2 hk0 (Fin.ext h)
      exact ⟨hk0, by omega⟩

/-- In a comparison with one text, the first two cells of row 1 are lost. -/
theorem two_le_of_kept {c : Fin 5} (honly : ∀ f', db.NonBlank g f' ↔ f' = .contentTF c 0)
    (h : Kept db g r₀ r₀ (.contentTF c 0)) : 2 ≤ c.val := by
  by_contra hlt
  have hheading := kept_first_iff.mp h (by omega)
  cases (honly _).mp hheading

/-- With the counted rows shown, those with text in the first column only are
lost. -/
theorem loadedOnSuccess_of_kept (hk : db.GroupKeys g) (hitems : db.itemsOf g ≠ [])
    (honly : ∀ f', db.NonBlank g f' ↔ f' = f)
    (h : Kept db g (App.selectedRowNum db g .ok) (App.selectedRowNum db g .ok) f) :
    f.LoadedOnSuccess := by
  cases f with
  | groupNameTF => trivial
  | nameTF c => trivial
  | memoTV c => trivial
  | itemTF k => trivial
  | contentTF c k =>
    by_cases h0 : k = 0
    · subst h0
      have htwo := two_le_of_kept honly h
      exact ⟨fun hc => by rw [hc] at htwo; exact absurd htwo (by decide),
        fun _ hc => by rw [hc] at htwo; exact absurd htwo (by decide)⟩
    · refine ⟨?_, fun hzero => absurd hzero h0⟩
      rintro rfl
      have hpos : 0 < k.val := Nat.pos_of_ne_zero fun h' => h0 (Fin.ext h')
      have hshown : k.val < App.selectedRowNum db g .ok := by
        have := (kept_of_row rfl hpos).mp h
        omega
      obtain ⟨j, -, hasked⟩ := (ViewController.lt_idNum_iff hk hitems h0).mp hshown
      obtain ⟨f', -, hcol, hblank⟩ := (Realm.rowAsked_iff hk).mp hasked
      exact hcol k ((honly f').mp hblank)

end Fields

/-- The list screen can read the store when it opens a row. -/
def Event.selects : Event → Prop
  | .didSelectRowAt _ select _ => select.succeed
  | _ => True

theorem Event.succeeds.selects {e : Event} (h : e.succeeds) : e.selects := by
  cases e with
  | didSelectRowAt row select reads => exact h.1
  | _ => trivial

/-- The fields that are retained, whether other operations may fail or not. -/
theorem retained_iff_of_selects {P : Event → Prop} {f : Field} (hsucc : ∀ e, e.succeeds → P e)
    (hselects : ∀ e, P e → e.selects) : Retained P f ↔ f.LoadedOnSuccess := by
  constructor
  · intro h
    obtain ⟨s, g, hs, hlen, honly⟩ := exists_reachable_only f
    have hblank := (honly f).mpr rfl
    have hitems : s.db.itemsOf g ≠ [] := by
      obtain ⟨v, hv, -⟩ := hblank
      exact hs.inv.itemsOf_ne_nil hv
    have hok : Reads.ok.succeed := ⟨rfl, rfl⟩
    exact loadedOnSuccess_of_kept (hs.inv.keys g) hitems honly
      (h.kept (fun _ => hsucc _ ⟨hok, hok⟩) (hsucc _ ⟨rfl, fun _ => rfl, hok⟩) hs (by omega)
        hblank)
  · intro hf
    refine retained_of_loads fun s e g hs hP row select reads heq _ hblank => ?_
    subst heq
    obtain ⟨v, hv, -⟩ := id hblank
    have hselect : select.succeed := hselects _ hP
    have hnum : App.selectedRowNum s.db g select = App.selectedRowNum s.db g .ok :=
      (if_pos hselect).trans (if_pos ⟨rfl, rfl⟩).symm
    rw [hnum]
    exact kept_of_loadedOnSuccess (hs.inv.keys g) (hs.inv.itemsOf_ne_nil hv) hf hblank

/-- **What is never lost.**  If the list screen can read the store whenever it
opens a row, then whatever else fails, or nothing does, the stored texts that stay
until they are typed over or their comparison is deleted are those of all fields
but the cells of the first column and the first cell of the second.  Titles, names,
memos, first headings and cells of the first row from the third column on stay also
if the list screen cannot read the store.  An editor in front at the start shows
the stored text (`App.Retains.shown`). -/
theorem retained_iff (f : Field) :
    (Retained Event.selects f ↔ f.LoadedOnSuccess) ∧
      (Retained Event.succeeds f ↔ f.LoadedOnSuccess) ∧
      (f.AlwaysLoaded → Retained (fun _ => True) f) := by
  refine ⟨?_, ?_, ?_⟩
  · exact retained_iff_of_selects (fun _ => Event.succeeds.selects) fun _ => id
  · exact retained_iff_of_selects (fun _ => id) fun _ => Event.succeeds.selects
  · exact fun hf => retained_of_loads fun s e g _ _ row select reads _ _ _ =>
      kept_of_alwaysLoaded hf

end HikakuKun
