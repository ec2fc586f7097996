/-
The process is killed in the middle of a handler.

A run of the app knows handlers that end, and throwing operations.  A process
can also be killed while a handler runs, or by a trap of the handler itself; the
committed transactions are on disk, and the next launch reads them.

* `App.disks` — the stores there are while a handler runs;
* `crashing` — the app, with kills and traps followed by a launch;
* `crash_safe` — this reaches no new state: a kill between two transactions
  leaves what a throwing transaction can leave.
-/
import HikakuKun.PartialForms

namespace HikakuKun

/-! ### The stores in the meantime -/

namespace Writes

/-- The operations of a save in their order: `try Realm()`, then the
transactions. -/
def succeeds (writes : Writes) : ℕ → Bool
  | 0 => writes.opens
  | i + 1 => writes.write i

/-- The same, and operation `n` throws. -/
def andFailingAt (writes : Writes) (n : ℕ) : Writes where
  opens := writes.succeeds 0 && decide (0 ≠ n)
  write i := writes.succeeds (i + 1) && decide (i + 1 ≠ n)

theorem succeeds_andFailingAt (writes : Writes) (n : ℕ) :
    (writes.andFailingAt n).succeeds = fun i => writes.succeeds i && decide (i ≠ n) := by
  funext i
  cases i <;> rfl

end Writes

/-- The operations of a delete in their order: `try Realm()`, the two lookups
and the transaction. -/
def Delete.succeeds (delete : Delete) : ℕ → Bool
  | 0 => delete.opens
  | 1 => delete.items
  | 2 => delete.contents
  | _ => delete.write

namespace CompareMainVC

/-- The operations of an insert. -/
def insertOps (vc : CompareMainVC) (now : String) : List (Realm → Realm) :=
  id :: Realm.addItem (vc.colItem now) ::
    (List.range vc.colNum).map fun col => Realm.addContents (vc.colContents now col)

/-- The stores there are while `saveData` runs. -/
def saveDisks (vc : CompareMainVC) (now : String) (writes : Writes) (db : Realm) : List Realm :=
  match vc.items with
  | none => [db]
  | some items =>
    if vc.groupIdInUse items db then
      match vc.contents.bind fun contents => vc.updateBlock now items contents db with
      | none => [db]
      | some db' => Throwing.disks writes.succeeds [id, fun _ => db'] db
    else Throwing.disks writes.succeeds (vc.insertOps now) db

variable {vc : CompareMainVC} {now : String} {writes : Writes} {db disk : Realm}

theorem insertData_eq_attemptAll (vc : CompareMainVC) (now : String) (writes : Writes)
    (db : Realm) :
    vc.insertData now writes db =
      Throwing.attemptAll writes.succeeds (vc.insertOps now) db := by
  rw [insertData, insertOps, Throwing.attemptAll]
  refine congrArg _ (funext fun db' => ?_)
  rw [Throwing.attemptAll]
  refine congrArg _ (funext fun db'' => ?_)
  exact Throwing.foldlM_range_attempt_eq (fun col => writes.write (col + 1)) _ db'' vc.colNum

/-- An update that does not trap, as a sequence of operations. -/
theorem saveData_eq_attemptAll {db' : Realm} (now : String) (writes : Writes) (hload : vc.Loaded)
    (hitems : db.itemsOf vc.groupId ≠ [])
    (hblock : vc.updateBlock now ⟨vc.groupId⟩ ⟨vc.groupId⟩ db = some db') :
    vc.saveData now writes db =
      some (Throwing.attemptAll writes.succeeds [id, fun _ => db'] db) := by
  obtain ⟨opens, write⟩ := writes
  rw [saveData_eq_write now _ hload hitems, Realm.write, hblock]
  cases opens with
  | false => rfl
  | true =>
    show some (Throwing.attempt (write 0) (fun _ => db') db) =
      some (Except.bind (Throwing.attempt (write 0) (fun _ => db') db) Except.ok)
    cases write 0 <;> rfl

theorem saveDisks_eq (now : String) (writes : Writes) (hload : vc.Loaded) :
    vc.saveDisks now writes db =
      if db.itemsOf vc.groupId = [] then Throwing.disks writes.succeeds (vc.insertOps now) db
      else match vc.updateBlock now ⟨vc.groupId⟩ ⟨vc.groupId⟩ db with
        | none => [db]
        | some db' => Throwing.disks writes.succeeds [id, fun _ => db'] db := by
  rw [saveDisks, hload.items, hload.contents]
  by_cases hitems : db.itemsOf vc.groupId = []
  · simp only [groupIdInUse_eq, hitems, ne_eq, not_true_eq_false, decide_false, Bool.false_eq_true,
      if_false, if_true]
  · simp only [groupIdInUse_eq, hitems, ne_eq, not_false_eq_true, decide_true, if_true, if_false,
      Option.bind_some]

/-- A store in the middle of a save is what a save with one more operation that
throws leaves. -/
theorem exists_saveData_of_mem_saveDisks (hload : vc.Loaded)
    (h : disk ∈ vc.saveDisks now writes db) :
    disk = db ∨ ∃ n outcome, vc.saveData now (writes.andFailingAt n) db = some outcome ∧
      Throwing.store outcome = disk := by
  rw [saveDisks_eq now writes hload] at h
  split at h
  case isTrue hitems =>
    obtain ⟨n, hn⟩ := Throwing.exists_attemptAll_of_mem_disks h
    rw [← Writes.succeeds_andFailingAt, ← insertData_eq_attemptAll] at hn
    exact .inr ⟨n, _, saveData_eq_insertData now _ hload hitems, hn⟩
  case isFalse hitems =>
    split at h
    -- a trap in the transaction leaves the store as it was
    case h_1 => exact .inl (List.mem_singleton.mp h)
    case h_2 db' hblock =>
      obtain ⟨n, hn⟩ := Throwing.exists_attemptAll_of_mem_disks h
      rw [← Writes.succeeds_andFailingAt] at hn
      exact .inr ⟨n, _, saveData_eq_attemptAll now _ hload hitems hblock, hn⟩

/-- The last store of a save is the one it leaves. -/
theorem getLast?_saveDisks {outcome : Except Realm Realm} (hload : vc.Loaded)
    (h : vc.saveData now writes db = some outcome) :
    (vc.saveDisks now writes db).getLast? = some (Throwing.store outcome) := by
  rw [saveDisks_eq now writes hload]
  by_cases hitems : db.itemsOf vc.groupId = []
  · rw [saveData_eq_insertData now writes hload hitems, insertData_eq_attemptAll,
      Option.some_inj] at h
    rw [if_pos hitems, Throwing.getLast?_disks, h]
  · rw [if_neg hitems]
    cases hblock : vc.updateBlock now ⟨vc.groupId⟩ ⟨vc.groupId⟩ db with
    | some db' =>
      rw [saveData_eq_attemptAll now writes hload hitems hblock, Option.some_inj] at h
      exact Throwing.getLast?_disks.trans (congrArg _ (congrArg _ h))
    -- without a trap, the store did not open
    | none =>
      rw [saveData_eq_write now writes hload hitems, Realm.write, hblock] at h
      split at h
      · cases h
      · cases h
        rfl

end CompareMainVC

namespace ViewController

variable {g : ℤ} {delete : Delete} {db disk : Realm}

/-- The operations of a delete. -/
def deleteOps (g : ℤ) : List (Realm → Realm) := [id, id, id, deleteGroup g]

theorem deleted_eq_attemptAll (delete : Delete) (g : ℤ) (db : Realm) :
    deleted delete g db =
      Throwing.store (Throwing.attemptAll delete.succeeds (deleteOps g) db) := by
  obtain ⟨opens, items, contents, write⟩ := delete
  cases opens <;> cases items <;> cases contents <;> cases write <;> rfl

/-- A store in the middle of a delete is what a delete with one more operation
that throws leaves. -/
theorem exists_deleted_of_mem_disks (h : disk ∈ Throwing.disks delete.succeeds (deleteOps g) db) :
    ∃ delete', deleted delete' g db = disk := by
  obtain ⟨n, hn⟩ := Throwing.exists_attemptAll_of_mem_disks h
  refine ⟨⟨delete.opens && decide (0 ≠ n), delete.items && decide (1 ≠ n),
    delete.contents && decide (2 ≠ n), delete.write && decide (3 ≠ n)⟩, ?_⟩
  rw [deleted_eq_attemptAll, ← hn]
  rfl

end ViewController

/-! ### Kills and traps -/

/-- What happens to a process that can be killed. -/
inductive Crash
  /-- An event whose handler ends. -/
  | handled (e : Event)
  /-- The process dies while it handles an event, killed or by a trap, with this
  store on disk, and is launched again. -/
  | killed (e : Event) (disk : Realm) (opens : Bool)

namespace App

/-- The stores there are while an event is handled. -/
def disks (s : App) : Event → List Realm
  | .saveBtnDidTap now writes _ =>
    match s.editor with
    | some vc => vc.saveDisks now writes s.db
    | none => [s.db]
  | .confirmDelete row delete =>
    match s.list.groupIdList[row]? with
    | some g => Throwing.disks delete.succeeds (ViewController.deleteOps g) s.db
    | none => [s.db]
  | _ => [s.db]

def crashEnabled (s : App) : Crash → Prop
  | .handled e => app.enabled s e
  | .killed e disk _ => app.enabled s e ∧ disk ∈ s.disks e

def crashStep (s : App) : Crash → Option App
  | .handled e => app.step s e
  | .killed _ disk opens => app.step { s with db := disk } (.launch opens)

end App

/-- The app whose process can be killed while it handles an event. -/
def crashing : EventSystem App Crash where
  enabled := App.crashEnabled
  step := App.crashStep

instance (s : App) : (c : Crash) → Decidable (crashing.enabled s c)
  | .handled e => inferInstanceAs (Decidable (app.enabled s e))
  | .killed e disk _ => inferInstanceAs (Decidable (app.enabled s e ∧ disk ∈ s.disks e))

section Crashing

variable {s s' : App} {e : Event}

/-- The last store of an event is the one its handler leaves. -/
theorem App.Inv.getLast?_disks (hinv : s.Inv) (he : app.enabled s e)
    (hs : app.step s e = some s') : (s.disks e).getLast? = some s'.db := by
  cases hinv.handled he hs with
  | notPresented reads => rfl
  | addNew hed hmax hreads => rfl
  | select hed hrow hg hreads => rfl
  | @delete row g delete hed hrow hg =>
    rw [disks, hg]
    show _ = some (ViewController.deleted delete g s.db)
    rw [ViewController.deleted_eq_attemptAll]
    exact Throwing.getLast?_disks
  | edit hed hf => rfl
  | addName hed hbtn => rfl
  | addItem hed hbtn => rfl
  | @save vc now writes reads outcome hed hsave =>
    rw [disks, hed]
    exact CompareMainVC.getLast?_saveDisks (hinv.editor vc hed).loaded hsave
  | back => rfl
  | swipe => rfl
  | layout => rfl
  | launch => rfl

/-- A store in the middle of a handler is one the app reaches. -/
theorem Reachable.of_mem_disks (hs : Reachable s) {disk : Realm} (he : app.enabled s e)
    (hd : disk ∈ s.disks e) : ∃ t, Reachable t ∧ t.db = disk := by
  have hinv := hs.inv
  obtain ⟨es, hrun⟩ := hs
  have hsame : disk = s.db → ∃ t, Reachable t ∧ t.db = disk :=
    fun h => ⟨s, ⟨es, hrun⟩, h.symm⟩
  cases e with
  | saveBtnDidTap now writes reads =>
    obtain ⟨vc, hed⟩ := Option.isSome_iff_exists.mp he
    rw [App.disks, hed] at hd
    rcases CompareMainVC.exists_saveData_of_mem_saveDisks (hinv.editor vc hed).loaded hd with
      heq | ⟨n, outcome, hsave, hdisk⟩
    · exact hsame heq
    -- the same save, with one more operation that throws
    · exact ⟨_, ⟨_, hrun.append (hinv.run_save hed hsave reads)⟩, hdisk⟩
  | confirmDelete row delete =>
    obtain ⟨g, hg⟩ := hinv.groupId_of_row he.2
    rw [App.disks, hg] at hd
    obtain ⟨delete', hdisk⟩ := ViewController.exists_deleted_of_mem_disks hd
    have hstep := App.confirmDelete_eq he.2 hg delete'
    have he' : app.enabled s (.confirmDelete row delete') := he
    exact ⟨_, ⟨_, hrun.snoc he' hstep⟩, hdisk⟩
  | _ => exact hsame (List.mem_singleton.mp hd)

/-- A run without kills. -/
theorem crashing_run_of_run {t : App} {es : List Event} (h : app.Run s es t) :
    crashing.Run s (es.map .handled) t := by
  induction h with
  | nil s => exact .nil s
  | cons he hs _ ih => exact .cons he hs ih

end Crashing

/-- **Crash safety.**  The states the app reaches when its process can be killed
between any two transactions of any handler, or dies by a trap, and is launched
again, are those it reaches without; and the last store a kill can leave is the
one the handler leaves. -/
theorem crash_safe (s : App) :
    ((∃ cs, crashing.Run App.init cs s) ↔ Reachable s) ∧
    (Reachable s → ∀ e s', app.enabled s e → app.step s e = some s' →
      (s.disks e).getLast? = some s'.db) := by
  refine ⟨⟨?_, ?_⟩, fun hs e s' he hstep => hs.inv.getLast?_disks he hstep⟩
  · rintro ⟨cs, hrun⟩
    refine hrun.invariant (I := Reachable) ?_ ⟨[], .nil _⟩
    intro s c s' hs he hstep
    cases c with
    | handled e =>
      obtain ⟨es, hes⟩ := hs
      exact ⟨_, hes.snoc he hstep⟩
    | killed e disk opens =>
      obtain ⟨t, ⟨es, hes⟩, rfl⟩ := hs.of_mem_disks he.1 he.2
      -- a launch keeps the store only
      have hlaunch : app.step t (.launch opens) = some s' := hstep
      have henabled : app.enabled t (.launch opens) := trivial
      exact ⟨_, hes.snoc henabled hlaunch⟩
  · rintro ⟨es, hes⟩
    exact ⟨_, crashing_run_of_run hes⟩

/-- The process is killed after the item of the first save of a new comparison. -/
def killedSave : List Crash :=
  [.handled (.addNewHikakuBtnDidTap true .ok),
    .killed (.saveBtnDidTap "" .ok .ok) ⟨[⟨1, "", fun _ => "", ""⟩], []⟩ true]

theorem killedSave_isSome : (crashing.exec App.init killedSave).isSome = true := by decide +kernel

theorem newAdded_isSome :
    (app.exec App.init [.addNewHikakuBtnDidTap true .ok]).isSome = true := by decide

theorem newSaved_isSome : (app.exec App.init ([.addNewHikakuBtnDidTap true .ok] ++
    [.saveBtnDidTap "" .ok .ok])).isSome = true := by decide

theorem crash_safe_killedSave : ∃ s t t', crashing.Run App.init killedSave s ∧ Reachable s ∧
    s.list = ⟨[""], [1]⟩ ∧ app.Run App.init [.addNewHikakuBtnDidTap true .ok] t ∧
    app.Run t [.saveBtnDidTap "" .ok .ok] t' ∧
    (t.disks (.saveBtnDidTap "" .ok .ok)).length = 5 ∧
    (t.disks (.saveBtnDidTap "" .ok .ok)).getLast? = some t'.db := by
  have hkilled := EventSystem.run_get_exec killedSave_isSome
  obtain ⟨t, ht, hsaved⟩ := EventSystem.run_append_iff.mp (EventSystem.run_get_exec newSaved_isSome)
  obtain rfl := ht.det (EventSystem.run_get_exec newAdded_isSome)
  obtain ⟨he, hstep⟩ := EventSystem.run_single_iff.mp hsaved
  exact ⟨_, _, _, hkilled, (crash_safe _).1.mp ⟨_, hkilled⟩, by decide +kernel, ht, hsaved,
    by decide +kernel, (crash_safe _).2 ⟨_, ht⟩ _ _ he hstep⟩

end HikakuKun
