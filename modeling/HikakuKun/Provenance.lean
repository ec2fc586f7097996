/-
Where the text comes from.

Text travels from the keyboard into a field, through backups, saves and loads
into other editors and back into the tables.  On the way it never changes its
group or its field, and a delete ends it.

* `TypedInto` — a text was typed into a field of an editor on a group, and no
  delete of the group has committed since;
* `App.Inv.hasText_of_stored`, `App.Inv.hasText_of_editor` — a step makes no text
  up: it was there before, or the step typed it;
* `text_provenance` — along every run, whatever fails, all text that is stored
  or shown was typed.
-/
import HikakuKun.Opening
import HikakuKun.PartialForms

namespace HikakuKun

open CompareMainVC (fresh)

/-- The event types the text into field `f` of an editor on group `g`. -/
def App.Types (g : ℤ) (f : Field) (text : String) (s : App) (e : Event) : Prop :=
  e = .edit f text ∧ ∃ vc, s.editor = some vc ∧ vc.groupId = g ∧ vc.visible f

/-- During the run of the events, the text was typed into field `f` of an
editor on group `g`, and no delete of the group has committed since. -/
def TypedInto (es : List Event) (g : ℤ) (f : Field) (text : String) : Prop :=
  app.Since (App.Types g f text) (App.NotDeleting g) App.init es

/-! ### What a step does to a text -/

namespace CompareMainVC

variable {db : Realm} {g : ℤ} {colNum rowNum : ℕ} {t : Texts} {f : Field}

/-- A load leaves a text, or assigns the stored one, or a blank. -/
theorem reloaded_cases :
    reloaded db g colNum rowNum t f = t f ∨
      db.stored g f = some (reloaded db g colNum rowNum t f) ∨
      reloaded db g colNum rowNum t f = "" := by
  have hgetD : ∀ {o : Option String} {b : String}, o.getD b = b ∨ o = some (o.getD b) := by
    intro o b
    cases o with
    | none => exact .inl rfl
    | some v => exact .inr rfl
  have hload : (db.stored g f).getD (t f) = t f ∨
      db.stored g f = some ((db.stored g f).getD (t f)) ∨ (db.stored g f).getD (t f) = "" :=
    hgetD.imp id .inl
  have hassign : (db.stored g f).getD "" = t f ∨
      db.stored g f = some ((db.stored g f).getD "") ∨ (db.stored g f).getD "" = "" :=
    .inr (hgetD.symm)
  have hnonBlank : ((db.stored g f).filter (· ≠ "")).getD (t f) = t f ∨
      db.stored g f = some (((db.stored g f).filter (· ≠ "")).getD (t f)) ∨
      ((db.stored g f).filter (· ≠ "")).getD (t f) = "" := by
    cases hv : db.stored g f with
    | none => exact .inl rfl
    | some v =>
      rw [getD_filter_some]
      split
      · exact .inl rfl
      · exact .inr (.inl rfl)
  cases f with
  | groupNameTF => exact hload
  | nameTF c =>
    rw [reloaded]
    split_ifs
    · exact hnonBlank
    · exact hload
    · exact .inl rfl
  | memoTV c =>
    rw [reloaded]
    split_ifs
    · exact hassign
    · exact .inl rfl
  | itemTF k =>
    rw [reloaded]
    split_ifs
    · exact hnonBlank
    · exact hload
    · exact .inl rfl
  | contentTF c k =>
    rw [reloaded]
    split_ifs
    · exact hassign
    · exact .inl rfl
    · exact hassign
    · exact .inl rfl
    · exact hload
    · exact .inl rfl

end CompareMainVC

namespace Realm

variable {db db' : Realm} {g g' : ℤ} {f : Field}

theorem stored_congr (hitems : db'.itemsOf g = db.itemsOf g)
    (hcontents : db'.contentsOf g = db.contentsOf g) : db'.stored g f = db.stored g f := by
  cases f with
  | groupNameTF => rw [stored, stored, hitems]
  | itemTF k => rw [stored, stored, hitems]
  | nameTF c => rw [stored, stored, hcontents]
  | contentTF c k => rw [stored, stored, hcontents]
  | memoTV c => rw [stored, stored, hcontents]

end Realm

/-- What a write stored in the editor's group is the text of the field. -/
theorem CompareMainVC.Written.eq_texts {vc : CompareMainVC} {now : String} {db db' : Realm} {j : ℕ}
    {f : Field} {v : String} (hw : vc.Written now db db' j)
    (hlen : (db.contentsOf vc.groupId).length ≤ j) (hv : db'.stored vc.groupId f = some v) :
    vc.texts f = v := by
  have hwithin := Realm.within_of_stored hw.numbered hv
  rw [hw.length, max_eq_right hlen] at hwithin
  exact Option.some_inj.mp ((hw.stored hwithin).symm.trans hv)

/-! ### Steps -/

/-- A field of the group holds this text, in the tables or in the editor in
front. -/
def App.HasText (s : App) (g : ℤ) (f : Field) (text : String) : Prop :=
  s.db.stored g f = some text ∨ ∃ vc, s.editor = some vc ∧ vc.groupId = g ∧ vc.texts f = text

namespace App

variable {s s' : App} {e : Event} {g : ℤ} {f : Field} {text : String}

/-- What a load shows was there before it. -/
theorem hasText_reloaded {vc : CompareMainVC} {colNum rowNum : ℕ}
    (hvc : vc.texts f ≠ "" → s.HasText g f (vc.texts f))
    (hne : CompareMainVC.reloaded s.db g colNum rowNum vc.texts f ≠ "") :
    s.HasText g f (CompareMainVC.reloaded s.db g colNum rowNum vc.texts f) := by
  rcases @CompareMainVC.reloaded_cases s.db g colNum rowNum vc.texts f with
    heq | hstored | hblank
  · rw [heq] at hne ⊢
    exact hvc hne
  · exact .inl hstored
  · exact absurd hblank hne

/-- A new editor shows stored text only. -/
theorem hasText_fresh {rowNum : ℕ} {reads : Reads} {width : ℚ}
    (hne : ((fresh g rowNum).redisplayed reads width s.db).texts f ≠ "") :
    s.HasText g f (((fresh g rowNum).redisplayed reads width s.db).texts f) :=
  @hasText_reloaded s g f (fresh g rowNum) _ _ (fun h => absurd rfl h) hne

/-- Nor does a + tap make up text. -/
theorem hasText_tapped {vc : CompareMainVC} {reads : Reads} {width : ℚ}
    (hvc : vc.texts f ≠ "" → s.HasText vc.groupId f (vc.texts f))
    (hne : (vc.tapped reads width s.db).texts f ≠ "") :
    s.HasText vc.groupId f ((vc.tapped reads width s.db).texts f) := by
  have htext : (vc.tapped reads width s.db).texts f =
      if CompareMainVC.Restored vc.rowNum f then vc.texts f
      else CompareMainVC.reloaded s.db vc.groupId (vc.loadedColNum reads s.db) vc.rowNum
        vc.texts f := rfl
  by_cases hrestored : CompareMainVC.Restored vc.rowNum f
  · rw [htext, if_pos hrestored] at hne ⊢
    exact hvc hne
  · rw [htext, if_neg hrestored] at hne ⊢
    exact hasText_reloaded hvc hne

/-- Stored text was there before the step, and the step deleted no group that
holds it. -/
theorem Inv.hasText_of_stored (hinv : s.Inv) (he : app.enabled s e) (hs : app.step s e = some s')
    (h : s'.db.stored g f = some text) : s.NotDeleting g e ∧ s.HasText g f text := by
  by_cases hg : s.writesGroup e = some g
  -- a save in an editor on this group, for a deleted group stores nothing
  · cases hinv.wrote hg he hs with
    | delete hg' hcommit hdb =>
      have hnone := ((hinv.keys.deleteGroup g) g).stored_eq_none Realm.itemsOf_deleteGroup f
      rw [hdb, hnone] at h
      cases h
    | @save vc now writes reads j hed hvg hcommit hj hlen hle hw =>
      subst hvg
      exact ⟨fun _ _ => Event.noConfusion, .inr ⟨vc, hed, rfl, hw.eq_texts hlen h⟩⟩
  · obtain ⟨hitems, hcontents⟩ := hinv.unwritten_step hg he hs
    rw [Realm.stored_congr hitems hcontents] at h
    exact ⟨fun _ _ _ => hg, .inl h⟩

/-- Text in the editor was there before the step, or the step typed it. -/
theorem Inv.hasText_of_editor (hinv : s.Inv) (he : app.enabled s e) (hs : app.step s e = some s')
    {vc' : CompareMainVC} (hvc' : s'.editor = some vc') (hne : vc'.texts f ≠ "") :
    s.NotDeleting vc'.groupId e ∧ (s.HasText vc'.groupId f (vc'.texts f) ∨
      ∃ vc, s.editor = some vc ∧ vc.groupId = vc'.groupId ∧ vc.visible f ∧
        e = .edit f (vc'.texts f)) := by
  have hshown : ∀ {vc : CompareMainVC}, s.editor = some vc → vc.texts f ≠ "" →
      s.HasText vc.groupId f (vc.texts f) := fun {vc} hed _ => .inr ⟨vc, hed, rfl, rfl⟩
  cases hinv.handled he hs with
  | notPresented reads => exact ⟨fun _ _ => Event.noConfusion, .inl (hshown hvc' hne)⟩
  | addNew hed hmax hreads =>
    obtain rfl := Option.some_inj.mp hvc'
    exact ⟨fun _ _ => Event.noConfusion, .inl (hasText_fresh hne)⟩
  | select hed hrow hg hreads =>
    obtain rfl := Option.some_inj.mp hvc'
    exact ⟨fun _ _ => Event.noConfusion, .inl (hasText_fresh hne)⟩
  | delete hed hrow hg => exact absurd (hed.symm.trans hvc') (Option.some_ne_none vc').symm
  | @edit vc field text hed hf =>
    obtain rfl := Option.some_inj.mp hvc'
    refine ⟨fun _ _ => Event.noConfusion, ?_⟩
    have htext : (vc.edit field text).texts f = if f = field then text else vc.texts f :=
      CompareMainVC.setText_apply vc.texts field f (some text)
    by_cases hfield : f = field
    · rw [htext, if_pos hfield]
      subst hfield
      exact .inr ⟨vc, hed, rfl, hf, rfl⟩
    · rw [htext, if_neg hfield] at hne ⊢
      exact .inl (hshown hed hne)
  | @addName vc reads hed hbtn =>
    obtain rfl := Option.some_inj.mp hvc'
    have hvc : vc.texts f ≠ "" → s.HasText vc.groupId f (vc.texts f) := hshown hed
    exact ⟨fun _ _ => Event.noConfusion,
      .inl (@hasText_tapped s f { vc with colNum := vc.colNum + 1 } _ _ hvc hne)⟩
  | @addItem vc reads hed hbtn =>
    obtain rfl := Option.some_inj.mp hvc'
    have hvc : vc.texts f ≠ "" → s.HasText vc.groupId f (vc.texts f) := hshown hed
    exact ⟨fun _ _ => Event.noConfusion,
      .inl (@hasText_tapped s f { vc with rowNum := vc.rowNum + 1 } _ _ hvc hne)⟩
  | @save vc now writes reads outcome hed hsave =>
    obtain rfl := Option.some_inj.mp hvc'
    refine ⟨fun _ _ => Event.noConfusion, .inl ?_⟩
    -- the redisplay reads what the save left
    rcases @CompareMainVC.reloaded_cases (Throwing.store outcome) vc.groupId
      (vc.loadedColNum reads (Throwing.store outcome)) vc.rowNum vc.texts f with
      heq | hstored | hblank
    · have heq : (vc.redisplayed reads s.width (Throwing.store outcome)).texts f = vc.texts f := heq
      rw [heq] at hne ⊢
      exact hshown hed hne
    · exact (hinv.hasText_of_stored he hs hstored).2
    · exact absurd hblank hne
  | back => cases hvc'
  | swipe => cases hvc'
  | layout => exact ⟨fun _ _ => Event.noConfusion, .inl (hshown hvc' hne)⟩
  | launch => cases hvc'

end App

/-! ### Runs -/

/-- **Provenance.**  Along every run, whatever fails, every text other than the
empty one that is stored for a field of a group, or shown in this field of an
editor on it, was typed into this very field of an editor on this group, after
the last delete of the group that committed. -/
theorem text_provenance {es : List Event} {s : App} (hrun : app.Run App.init es s) :
    (∀ g f text, s.db.stored g f = some text → text ≠ "" → TypedInto es g f text) ∧
    ∀ vc, s.editor = some vc → ∀ f, vc.texts f ≠ "" → TypedInto es vc.groupId f (vc.texts f) := by
  have htyped : ∀ g f text, s.HasText g f text → text ≠ "" → TypedInto es g f text := by
    intro g f text htext hne
    refine hrun.since (Q := fun u => u.HasText g f text) ?_ ?_ htext
    · rintro (hstored | ⟨vc, hvc, -⟩)
      · have hnone : App.init.db.stored g f = none :=
          (Realm.keys_empty g).stored_eq_none rfl f
        rw [hnone] at hstored
        cases hstored
      · cases hvc
    -- text after a step is older than the step, or typed by it
    · rintro fs u e u' hfs he hs (hstored | ⟨vc, hvc, rfl, rfl⟩)
      · obtain ⟨hdel, hold⟩ := (App.inv_of_run hfs).hasText_of_stored he hs hstored
        exact .inr ⟨hold, hdel⟩
      · rcases (App.inv_of_run hfs).hasText_of_editor he hs hvc hne with
          ⟨hdel, hold | ⟨vc', hvc', hg, hf, heq⟩⟩
        · exact .inr ⟨hold, hdel⟩
        · exact .inl ⟨heq, vc', hvc', hg, hf⟩
  exact ⟨fun g f text h hne => htyped g f text (.inl h) hne,
    fun vc hvc f hne => htyped _ f _ (.inr ⟨vc, hvc, rfl, rfl⟩) hne⟩

theorem text_provenance_cellWithoutHeading : ∃ s, app.Run App.init cellWithoutHeading s ∧
    TypedInto cellWithoutHeading 1 (.contentTF 0 0) "a" := by
  have hrun := EventSystem.run_get_exec cellWithoutHeading_isSome
  have hstored : ((app.exec App.init cellWithoutHeading).get
      cellWithoutHeading_isSome).db.stored 1 (.contentTF 0 0) = some "a" := by
    decide +kernel
  exact ⟨_, hrun, (text_provenance hrun).1 1 _ "a" hstored (by decide)⟩

end HikakuKun
