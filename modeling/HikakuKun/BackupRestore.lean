/-
What a + tap keeps.

A + tap backs the fields up, loads the view again and restores the backup.
The backup has one entry more for each row from the third on, and the restore
decides from the number of entries which rows to write back.  The two ladders
differ: rows 3 and 4 come back when the row number reaches them, rows 5 and 6
only one row number later, and row 7 never (`RowRestored`).

* `restoreTexts_backupData` — a restore writes back exactly the restored fields;
* `redisplay_eq` — a + tap keeps the restored fields and reloads the others.
-/
import HikakuKun.ViewDidLoad

namespace HikakuKun

namespace CompareMainVC

/-- Row `k` is written back by a tap after which the editor has `rowNum` rows. -/
def RowRestored (rowNum : ℕ) (k : Fin 7) : Prop :=
  k.val < 2 ∨ (k.val < 4 ∧ k.val < rowNum) ∨ (k.val < 6 ∧ k.val + 1 < rowNum)

instance (rowNum : ℕ) (k : Fin 7) : Decidable (RowRestored rowNum k) :=
  inferInstanceAs (Decidable (_ ∨ _))

/-- A field is written back unless it belongs to a row that is not. -/
def Restored (rowNum : ℕ) : Field → Prop
  | .itemTF k => RowRestored rowNum k
  | .contentTF _ k => RowRestored rowNum k
  | _ => True

instance (rowNum : ℕ) : (f : Field) → Decidable (Restored rowNum f)
  | .itemTF k => inferInstanceAs (Decidable (RowRestored rowNum k))
  | .contentTF _ k => inferInstanceAs (Decidable (RowRestored rowNum k))
  | .groupNameTF | .nameTF _ | .memoTV _ => .isTrue trivial

theorem mem_nameFields {f : Field} : f ∈ nameFields ↔ ∃ c, f = .nameTF c := by
  simp [nameFields, eq_comm]

theorem mem_memoFields {f : Field} : f ∈ memoFields ↔ ∃ c, f = .memoTV c := by
  simp [memoFields, eq_comm]

theorem mem_rowFields {f : Field} {k : Fin 7} :
    f ∈ rowFields k ↔ f = .itemTF k ∨ ∃ c, f = .contentTF c k := by
  simp [rowFields, eq_comm]

variable {vc : CompareMainVC}

theorem length_backupData (vc : CompareMainVC) :
    vc.backupData.length = 5 + (min vc.rowNum 7 - 2) := by
  simp only [backupData, List.length_append, apply_ite List.length, List.length_cons,
    List.length_nil]
  split_ifs <;> omega

/-- Entry `k + 3` of the backup is row `k`. -/
theorem backupData_row {k : Fin 7} (hk : k.val < 2 ∨ k.val < vc.rowNum) :
    vc.backupData[k.val + 3]? = some ((rowFields k).map vc.texts) := by
  have hrow : ∀ n, n ≤ k.val → 2 ≤ k.val → n + 1 ≤ vc.rowNum := by omega
  fin_cases k
  · rfl
  · rfl
  · simp [backupData, hrow 2]
  · simp [backupData, hrow 2, hrow 3]
  · simp [backupData, hrow 2, hrow 3, hrow 4]
  · simp [backupData, hrow 2, hrow 3, hrow 4, hrow 5]
  · simp [backupData, hrow 2, hrow 3, hrow 4, hrow 5, hrow 6]

theorem restoreFields_eq {data : List (List String)} {i : ℕ} {fields : List Field} {m : Texts}
    (h : data[i]? = some (fields.map m)) (t : Texts) :
    restoreFields data i fields t = some fun f => if f ∈ fields then m f else t f := by
  rw [restoreFields, h, Option.bind_some, Memory.writeAll_map]

/-- A row is written back when the backup is long enough for its threshold. -/
theorem restoreRow_eq {n : ℕ} {k : Fin 7} (hk : 2 ≤ k.val)
    (hn : n ≤ vc.backupData.length ↔ RowRestored vc.rowNum k) (t : Texts) :
    restoreRow vc.backupData n (k.val + 3) k t =
      some fun f => if RowRestored vc.rowNum k ∧ f ∈ rowFields k then vc.texts f else t f := by
  simp only [restoreRow, ge_iff_le, hn]
  split
  case isTrue h =>
    have hlt : k.val < vc.rowNum := by
      unfold RowRestored at h
      omega
    rw [restoreFields_eq (backupData_row (.inr hlt))]
    simp [h]
  case isFalse h => simp [h]

theorem restoreTexts_backupData (vc : CompareMainVC) (t : Texts) :
    restoreTexts vc.backupData t =
      some fun f => if Restored vc.rowNum f then vc.texts f else t f := by
  have hlen := length_backupData vc
  have htitle : vc.backupData[0]? = some ([Field.groupNameTF].map vc.texts) := rfl
  have hnames : vc.backupData[1]? = some (nameFields.map vc.texts) := rfl
  have hmemos : vc.backupData[2]? = some (memoFields.map vc.texts) := rfl
  have hrow0 : ∀ t, restoreFields vc.backupData 3 (rowFields 0) t = _ :=
    restoreFields_eq (backupData_row (k := 0) (.inl (by decide)))
  have hrow1 : ∀ t, restoreFields vc.backupData 4 (rowFields 1) t = _ :=
    restoreFields_eq (backupData_row (k := 1) (.inl (by decide)))
  have hrow2 : ∀ t, restoreRow vc.backupData 6 5 2 t = _ :=
    restoreRow_eq (k := 2) (by decide) <| show _ ↔ 2 < 2 ∨ (2 < 4 ∧ 2 < _) ∨ (2 < 6 ∧ 3 < _) by
      omega
  have hrow3 : ∀ t, restoreRow vc.backupData 7 6 3 t = _ :=
    restoreRow_eq (k := 3) (by decide) <| show _ ↔ 3 < 2 ∨ (3 < 4 ∧ 3 < _) ∨ (3 < 6 ∧ 4 < _) by
      omega
  have hrow4 : ∀ t, restoreRow vc.backupData 9 7 4 t = _ :=
    restoreRow_eq (k := 4) (by decide) <| show _ ↔ 4 < 2 ∨ (4 < 4 ∧ 4 < _) ∨ (4 < 6 ∧ 5 < _) by
      omega
  have hrow5 : ∀ t, restoreRow vc.backupData 10 8 5 t = _ :=
    restoreRow_eq (k := 5) (by decide) <| show _ ↔ 5 < 2 ∨ (5 < 4 ∧ 5 < _) ∨ (5 < 6 ∧ 6 < _) by
      omega
  have hrow6 : ∀ t, restoreRow vc.backupData 11 9 6 t = _ :=
    restoreRow_eq (k := 6) (by decide) <| show _ ↔ 6 < 2 ∨ (6 < 4 ∧ 6 < _) ∨ (6 < 6 ∧ 7 < _) by
      omega
  rw [restoreTexts]
  simp only [restoreFields_eq htitle, restoreFields_eq hnames, restoreFields_eq hmemos, hrow0,
    hrow1, hrow2, hrow3, hrow4, hrow5, hrow6, Option.bind_eq_bind, Option.bind_some]
  refine congrArg some (funext fun f => ?_)
  have hfirst : ∀ k : Fin 7, k.val < 2 → RowRestored vc.rowNum k := fun k hk => .inl hk
  -- the writes overlap nowhere, so a field is decided by its own row
  cases f with
  | groupNameTF => simp [mem_memoFields, mem_rowFields, Restored]
  | nameTF c => simp [mem_nameFields, mem_memoFields, mem_rowFields, Restored]
  | memoTV c => simp [mem_memoFields, mem_rowFields, Restored]
  | itemTF k =>
    fin_cases k <;> simp [mem_nameFields, mem_memoFields, mem_rowFields, Restored, hfirst] <;> rfl
  | contentTF c k =>
    fin_cases k <;> simp [mem_nameFields, mem_memoFields, mem_rowFields, Restored, hfirst] <;> rfl

/-! ### The + taps -/

/-- The editor after a + tap, from the editor whose numbers are already the
new ones: the restored fields keep their text, the others are reloaded. -/
def tapped (vc : CompareMainVC) (reads : Reads) (width : ℚ) (db : Realm) : CompareMainVC :=
  { vc.loadView.redisplayed reads width db with
    texts := fun f => if Restored vc.rowNum f then vc.texts f
      else reloaded db vc.groupId (vc.loadedColNum reads db) vc.rowNum vc.texts f }

theorem redisplay_eq {reads : Reads} {width : ℚ} {db : Realm}
    (hnum : db.ColumnsNumbered vc.groupId) (hload : vc.Loaded) (hcol : 1 ≤ vc.colNum)
    (hfive : vc.loadedColNum reads db ≤ 5) :
    vc.redisplay reads width db = some (vc.tapped reads width db) := by
  have hview : vc.loadView.viewDidLoad reads width db =
      some (vc.loadView.redisplayed reads width db) :=
    viewDidLoad_eq hnum (.inl ⟨hload.items, hload.contents⟩) hcol hfive
  rw [redisplay, hview, Option.bind_eq_bind, Option.bind_some, restoreData,
    restoreTexts_backupData]
  rfl

end CompareMainVC

end HikakuKun
