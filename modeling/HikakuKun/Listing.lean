/-
The list screen, in terms of the forms.

A rebuilt list has a row for each form that was put and not removed since, in
the order in which the groups were first saved.  So it is known from the saves
and deletes that committed, like the forms themselves.

* `App.orderOp`, `savedOrder` — the group ids in the order of their first saves;
* `App.Inv.ids_step` — the item table keeps this order;
* `rebuilt_list_eq` — the rebuilt list after any run;
* `App.Extends`, `rows_and_columns_kept` — what no event but a delete takes from
  a comparison: its place among the rows and its columns.
-/
import HikakuKun.Records

namespace HikakuKun

/-- The text of the row of a form. -/
def Form.rowText (form : Form) : String :=
  form.title ++ if form.columns = [] then "" else
    "  :  " ++ ", ".intercalate (form.columns.map (·.name))

theorem displayText_eq_rowText {db : Realm} {item : CompareItemRealm} :
    ViewController.displayText db item =
      (Realm.formOf item (db.contentsOf item.groupId)).rowText := by
  have hnames : ((db.contentsOf item.groupId).map Realm.columnOf).map (·.name) =
      (db.contentsOf item.groupId).map (·.name) := by
    rw [List.map_map]
    rfl
  have hnil : (db.contentsOf item.groupId).map Realm.columnOf = [] ↔
      db.contentsOf item.groupId = [] := List.map_eq_nil_iff
  rw [ViewController.displayText_eq, Form.rowText, Realm.formOf, if_congr hnil rfl rfl, hnames]

/-- The row of a group: the text of its form. -/
def Forms.rowText (m : Forms) (g : ℤ) : String := ((m.lookup g).map Form.rowText).getD ""

/-- The form of a group with an item record. -/
theorem Realm.Keys.formAt_of_mem {db : Realm} (hk : db.Keys) {item : CompareItemRealm}
    (hitem : item ∈ db.items) :
    db.formAt item.groupId = some (Realm.formOf item (db.contentsOf item.groupId)) := by
  have hmem : item ∈ db.itemsOf item.groupId := Realm.mem_itemsOf.mpr ⟨hitem, rfl⟩
  obtain ⟨item', heq⟩ := (hk item.groupId).exists_itemsOf_eq (List.ne_nil_of_mem hmem)
  rw [heq, List.mem_singleton] at hmem
  rw [Realm.formAt, heq, ← hmem]
  rfl

/-- A rebuilt list shows the forms, in the order of the item table. -/
theorem Realm.HasForms.viewDidLoad_eq {db : Realm} {m : Forms} (h : db.HasForms m)
    (list : ViewController) : list.viewDidLoad true db =
      ⟨(db.items.map CompareItemRealm.groupId).map m.rowText,
        db.items.map CompareItemRealm.groupId⟩ := by
  have htext : ∀ item ∈ db.items,
      ViewController.displayText db item = m.rowText item.groupId := by
    intro item hitem
    rw [Forms.rowText, ← h.formAt_eq item.groupId, h.keys.formAt_of_mem hitem,
      displayText_eq_rowText]
    rfl
  rw [ViewController.viewDidLoad_true, List.map_map]
  exact congrArg (ViewController.mk · _) (List.map_congr_left htext)

/-! ### The order of the rows -/

namespace App

/-- What an event does to the order of the groups: a first save appends its
group, a delete takes its group out. -/
def orderOp (s : App) (e : Event) (order : List ℤ) : List ℤ :=
  match s.writesGroup e with
  | none => order
  | some g =>
    match e with
    | .confirmDelete _ _ => order.filter (· ≠ g)
    | _ => if g ∈ order then order else order ++ [g]

variable {s s' t : App} {e : Event} {es : List Event}

/-- The item table keeps its records in this order. -/
theorem Inv.ids_step (hinv : s.Inv) (he : app.enabled s e) (hs : app.step s e = some s') :
    s'.ids = s.orderOp e s.ids := by
  rcases hinv.written_step he hs with ⟨hnone, hdb⟩ | ⟨g, hg, hwrote⟩
  · rw [orderOp, hnone, ids, hdb, ids]
  · cases hwrote with
    | delete hrow hcommit hdb =>
      rw [orderOp, hg, ids, hdb]
      show (s.db.items.filter _).map _ = (s.db.items.map _).filter _
      rw [List.filter_map]
      rfl
    | @save vc now writes reads j hed hvc hcommit hj hlen hle hw =>
      have hmem : g ∈ s'.ids := by
        refine Realm.itemsOf_ne_nil_iff.mp ?_
        rw [← hvc, hw.items]
        exact List.cons_ne_nil _ _
      have hids : s'.ids = s.ids ∨
          (s.db.itemsOf vc.groupId = [] ∧ s'.ids = s.ids ++ [vc.groupId]) := by
        cases hinv.handled he hs with
        | @save vc' now writes reads outcome hed' hsave =>
          obtain rfl : vc = vc' := Option.some_inj.mp (hed.symm.trans hed')
          exact CompareMainVC.map_groupId_saveData (hinv.editor vc hed).loaded hsave
      rw [orderOp, hg]
      show s'.ids = if g ∈ s.ids then s.ids else s.ids ++ [g]
      rcases hids with hkept | ⟨hfresh, happended⟩
      · rw [hkept] at hmem
        rw [if_pos hmem, hkept]
      · have hnot : g ∉ s.ids := by
          rw [← hvc]
          exact fun h => Realm.itemsOf_ne_nil_iff.mpr h hfresh
        rw [if_neg hnot, happended, hvc]

end App

/-- The groups in the order in which they were first saved, those deleted
since left out. -/
def savedOrder (es : List Event) : List ℤ := app.track App.orderOp App.init es []

theorem ids_eq_savedOrder {es : List Event} {s : App} (hrun : app.Run App.init es s) :
    s.ids = savedOrder es := by
  have hboth : s.Inv ∧ s.ids = savedOrder es :=
    hrun.refines (R := fun s order => s.Inv ∧ s.ids = order) (P := fun _ => True)
      (fun ⟨hi, hids⟩ _ he hs => ⟨hi.step he hs, by rw [hi.ids_step he hs, hids]⟩)
      (fun _ _ => trivial) ⟨App.inv_init, rfl⟩
  exact hboth.2

/-- A group has a form in the map when its id is in the item table. -/
theorem Realm.HasForms.mem_iff {db : Realm} {m : Forms} (h : db.HasForms m) {g : ℤ} :
    g ∈ m ↔ g ∈ db.items.map CompareItemRealm.groupId := by
  rw [← Finmap.lookup_isSome, ← h.formAt_eq g, ← Realm.itemsOf_ne_nil_iff, Realm.formAt,
    Option.isSome_map, List.isSome_head?]

/-- **The list after a run.**  Along every run, whatever fails, a rebuilt list has
one row for each of the forms that the saves and deletes that committed have left,
in the order of their first saves, with their texts. -/
theorem rebuilt_list_eq {es : List Event} {s : App} (hrun : app.Run App.init es s) :
    (savedOrder es).Nodup ∧ (∀ g, g ∈ savedOrder es ↔ g ∈ formsLeft es) ∧
    s.list.viewDidLoad true s.db =
      ⟨(savedOrder es).map (formsLeft es).rowText, savedOrder es⟩ := by
  obtain ⟨-, hforms⟩ := hasForms_of_run hrun
  have hids : s.db.items.map CompareItemRealm.groupId = savedOrder es := ids_eq_savedOrder hrun
  rw [← hids]
  refine ⟨?_, fun g => hforms.mem_iff.symm, hforms.viewDidLoad_eq _⟩
  exact Table.nodup_map_of_group fun g => (hforms.keys g).item

/-- The first of two comparisons is deleted, opened through the row that has
moved up, and saved: it comes back as the last. -/
def savedAgain : List Event :=
  twoGroups ++ [.confirmDelete 0 .ok, .didSelectRowAt 0 .ok .ok, .saveBtnDidTap "" .ok .ok]

theorem savedAgain_isSome : (app.exec App.init savedAgain).isSome = true := by decide +kernel

theorem rebuilt_list_eq_savedAgain : ∃ s, app.Run App.init savedAgain s ∧
    (s.list.viewDidLoad true s.db).groupIdList = [2, 1] := by
  have horder : savedOrder savedAgain = [2, 1] := by decide +kernel
  have hrun := EventSystem.run_get_exec savedAgain_isSome
  obtain ⟨-, -, hlist⟩ := rebuilt_list_eq hrun
  refine ⟨_, hrun, ?_⟩
  rw [hlist, horder]

/-! ### What is kept -/

namespace App

variable {s s' t : App} {e : Event} {es : List Event} {kept : List ℤ} {g : ℤ}

/-- The rows of `order` with some of them gone, and new rows after them. -/
def Extends (kept order order' : List ℤ) : Prop :=
  ∃ old new, order' = old ++ new ∧ kept.Sublist old ∧ old.Sublist order

theorem Extends.orderOp {order order' : List ℤ} (h : Extends kept order order')
    (hdel : ∀ g ∈ kept, s.NotDeleting g e) : Extends kept order (s.orderOp e order') := by
  obtain ⟨old, new, rfl, hkept, hold⟩ := h
  rw [App.orderOp]
  cases hg : s.writesGroup e with
  | none => exact ⟨old, new, rfl, hkept, hold⟩
  | some g =>
    cases e with
    | confirmDelete row delete =>
      -- none of the rows kept is taken out
      have hnot : ∀ g' ∈ kept, decide (g' ≠ g) = true := by
        intro g' hg'
        have hne := hdel g' hg' row delete rfl
        rw [hg] at hne
        rw [decide_eq_true_iff]
        exact fun heq => hne (congrArg some heq.symm)
      have hsub : kept.Sublist (old.filter (· ≠ g)) := by
        have hfilter := hkept.filter (fun g' => decide (g' ≠ g))
        rwa [List.filter_eq_self.mpr hnot] at hfilter
      exact ⟨old.filter (· ≠ g), new.filter (· ≠ g), List.filter_append .., hsub,
        List.filter_sublist.trans hold⟩
    | _ =>
      show Extends kept order (if g ∈ old ++ new then old ++ new else old ++ new ++ [g])
      by_cases hmem : g ∈ old ++ new
      · rw [if_pos hmem]
        exact ⟨old, new, rfl, hkept, hold⟩
      · rw [if_neg hmem]
        exact ⟨old, new ++ [g], List.append_assoc .., hkept, hold⟩

/-- A group that a step does not delete keeps its columns. -/
theorem Inv.columns_step (hinv : s.Inv) (hdel : s.NotDeleting g e) (he : app.enabled s e)
    (hs : app.step s e = some s') :
    (s.db.contentsOf g).length ≤ (s'.db.contentsOf g).length := by
  by_cases hg : s.writesGroup e = some g
  · cases hinv.wrote hg he hs with
    | delete hrow hcommit hdb => exact absurd hg (hdel _ _ rfl)
    | save hed hvc hcommit hj hlen hle hw =>
      rw [← hvc, hw.length]
      exact le_max_left _ _
  · rw [(hinv.unwritten_step hg he hs).2]

end App

/-- **What is kept.**  From every reachable state, along every run, whatever
fails: the rows whose groups are not deleted stay in a rebuilt list in the order
they had, new rows come after them, and their groups lose no column. -/
theorem rows_and_columns_kept {s t : App} {es : List Event} (hs : Reachable s)
    (hrun : app.Run s es t) {kept : List ℤ}
    (hkept : kept.Sublist (s.list.viewDidLoad true s.db).groupIdList)
    (hdel : app.AlongRun (fun s e => ∀ g ∈ kept, s.NotDeleting g e) s es) :
    (∃ old new, (t.list.viewDidLoad true t.db).groupIdList = old ++ new ∧
      kept.Sublist old ∧ old.Sublist (s.list.viewDidLoad true s.db).groupIdList) ∧
    ∀ g ∈ kept, (s.db.contentsOf g).map (·.id) <+: (t.db.contentsOf g).map (·.id) := by
  have hids : ∀ u : App, (u.list.viewDidLoad true u.db).groupIdList = u.ids := by
    intro u
    rw [ViewController.viewDidLoad_true]
    rfl
  rw [hids s] at hkept ⊢
  rw [hids t]
  have hinvariant : t.Inv ∧ App.Extends kept s.ids t.ids ∧
      ∀ g ∈ kept, (s.db.contentsOf g).length ≤ (t.db.contentsOf g).length :=
    hrun.invariant_along (I := fun u => u.Inv ∧ App.Extends kept s.ids u.ids ∧
        ∀ g ∈ kept, (s.db.contentsOf g).length ≤ (u.db.contentsOf g).length)
      (fun ⟨hi, hrows, hcolumns⟩ hdel he hstep => by
        refine ⟨hi.step he hstep, ?_, fun g hg => ?_⟩
        · rw [hi.ids_step he hstep]
          exact hrows.orderOp hdel
        · exact (hcolumns g hg).trans (hi.columns_step (hdel g hg) he hstep))
      hdel ⟨hs.inv, ⟨s.ids, [], (List.append_nil _).symm, hkept, List.Sublist.refl _⟩,
        fun g _ => le_rfl⟩
  obtain ⟨hinv, hrows, hcolumns⟩ := hinvariant
  refine ⟨hrows, fun g hg => ?_⟩
  -- both groups are numbered from 0 on
  have hnum : (s.db.contentsOf g).map (·.id) = List.range _ := (hs.inv.keys g).numbered
  have hnum' : (t.db.contentsOf g).map (·.id) = List.range _ := (hinv.keys g).numbered
  have htake : (List.range (t.db.contentsOf g).length).take (s.db.contentsOf g).length =
      List.range (s.db.contentsOf g).length := by
    rw [List.take_range, Nat.min_eq_left (hcolumns g hg)]
  rw [hnum, hnum', ← htake]
  exact List.take_prefix _ _

theorem rows_and_columns_kept_savedAgain : ∃ s t, app.Run App.init twoGroups s ∧
    app.Run s [.confirmDelete 0 .ok, .didSelectRowAt 0 .ok .ok, .saveBtnDidTap "" .ok .ok] t ∧
    (∃ old new, (t.list.viewDidLoad true t.db).groupIdList = old ++ new ∧
      [2].Sublist old ∧ old.Sublist (s.list.viewDidLoad true s.db).groupIdList) ∧
    ∀ g ∈ ([2] : List ℤ), (s.db.contentsOf g).map (·.id) <+: (t.db.contentsOf g).map (·.id) := by
  obtain ⟨s, hs, ht⟩ := EventSystem.run_append_iff.mp (EventSystem.run_get_exec savedAgain_isSome)
  obtain rfl := hs.det (EventSystem.run_get_exec twoGroups_isSome)
  have hkept : [2].Sublist (((app.exec App.init twoGroups).get twoGroups_isSome).list.viewDidLoad
      true ((app.exec App.init twoGroups).get twoGroups_isSome).db).groupIdList := by
    rw [ViewController.viewDidLoad_true]
    decide +kernel
  refine ⟨_, _, hs, ht, rows_and_columns_kept ⟨_, hs⟩ ht hkept ⟨?_, fun u _ => ?_⟩⟩
  -- the delete takes the first group
  · rintro g hg row delete ⟨rfl, rfl⟩
    rw [List.mem_singleton.mp hg]
    decide +kernel
  · refine EventSystem.alongRun_of_forall fun e he s g _ row delete heq => ?_
    subst heq
    simp at he

end HikakuKun
