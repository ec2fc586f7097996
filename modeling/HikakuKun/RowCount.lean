/-
How many rows an opened group shows.

The list screen decides from the headings and from the columns with ids 1 to
4; the first column, with id 0, is not asked.

* `lt_idNum_iff` — a row is shown iff it or a later one passes the test;
* `rowNum_isGreatest_iff` — exactly when the number of rows is that of the last
  row that holds text.
-/
import HikakuKun.Reachable

namespace HikakuKun

namespace Realm

/-- Row `k` of a stored group holds text. -/
def RowHolds (db : Realm) (g : ℤ) (k : Fin 7) : Prop :=
  (∃ item ∈ db.itemsOf g, item.item k ≠ "") ∨
    ∃ content ∈ db.contentsOf g, content.content k ≠ ""

/-- Row `k` holds text outside the first column. -/
def RowAsked (db : Realm) (g : ℤ) (k : Fin 7) : Prop :=
  (∃ item ∈ db.itemsOf g, item.item k ≠ "") ∨
    ∃ content ∈ db.contentsOf g, content.id ≠ 0 ∧ content.content k ≠ ""

instance (db : Realm) (g : ℤ) (k : Fin 7) : Decidable (db.RowHolds g k) :=
  inferInstanceAs (Decidable (_ ∨ _))

instance (db : Realm) (g : ℤ) (k : Fin 7) : Decidable (db.RowAsked g k) :=
  inferInstanceAs (Decidable (_ ∨ _))

variable {db : Realm} {g : ℤ} {k : Fin 7}

theorem RowAsked.rowHolds (h : db.RowAsked g k) : db.RowHolds g k := by
  rcases h with h | ⟨content, hc, -, hne⟩
  · exact .inl h
  · exact .inr ⟨content, hc, hne⟩

theorem rowHolds_iff : db.RowHolds g k ↔ db.RowAsked g k ∨
    ∃ content ∈ db.contentsOf g, content.id = 0 ∧ content.content k ≠ "" := by
  constructor
  · rintro (h | ⟨content, hc, hne⟩)
    · exact .inl (.inl h)
    · by_cases hid : content.id = 0
      · exact .inr ⟨content, hc, hid, hne⟩
      · exact .inl (.inr ⟨content, hc, hid, hne⟩)
  · rintro (h | ⟨content, hc, -, hne⟩)
    · exact h.rowHolds
    · exact .inr ⟨content, hc, hne⟩

end Realm

namespace ViewController

variable {db : Realm} {g : ℤ} {k : Fin 7}

/-- What the test of a block asks about a stored group. -/
theorem showsRow_iff (hk : db.GroupKeys g) (hg : db.itemsOf g ≠ []) :
    ShowsRow (db.itemsOf g) (db.contentsOf g) k ↔ db.RowAsked g k := by
  obtain ⟨item, hitem⟩ := hk.exists_itemsOf_eq hg
  refine or_congr ?_ ?_
  · rw [hitem]
    simp
  · have hcell : ∀ id, cellShowsRow (db.contentsOf g) k id = true ↔
        ∃ content ∈ db.contentsOf g, content.id = id ∧ content.content k ≠ "" := by
      intro id
      rw [cellShowsRow, Option.any_eq_true]
      constructor
      · rintro ⟨content, hfirst, hne⟩
        obtain ⟨hmem, hid⟩ := hk.firstWithId_eq_some_iff.mp hfirst
        exact ⟨content, hmem, hid, of_decide_eq_true hne⟩
      · rintro ⟨content, hmem, hid, hne⟩
        exact ⟨content, hk.firstWithId_eq_some_iff.mpr ⟨hmem, hid⟩, decide_eq_true hne⟩
    constructor
    · rintro ⟨id, hid, hshows⟩
      obtain ⟨content, hmem, rfl, hne⟩ := (hcell id).mp hshows
      refine ⟨content, hmem, ?_, hne⟩
      intro h0
      rw [h0] at hid
      exact absurd hid (by decide)
    · rintro ⟨content, hmem, h0, hne⟩
      have hlt := hk.numbered.lt_length hmem
      have hfive := hk.le_five
      refine ⟨content.id, ?_, (hcell _).mpr ⟨content, hmem, rfl, hne⟩⟩
      -- the ids of a group are 0 to 4
      have : content.id = 1 ∨ content.id = 2 ∨ content.id = 3 ∨ content.id = 4 := by omega
      simpa using this

/-- A row after the first is shown iff it, or a row below it, passes the test. -/
theorem lt_idNum_iff (hk : db.GroupKeys g) (hg : db.itemsOf g ≠ []) (h0 : k ≠ 0) :
    k.val < idNum (db.itemsOf g) (db.contentsOf g) ↔ ∃ j, k ≤ j ∧ db.RowAsked g j := by
  obtain ⟨hmem, hmax⟩ := idNum_isGreatest (db.itemsOf g) (db.contentsOf g)
  have hpos : 0 < k.val := Nat.pos_of_ne_zero fun h => h0 (Fin.ext h)
  constructor
  · intro hlt
    rcases hmem with h1 | ⟨j, ⟨-, hj⟩, heq⟩
    · omega
    · refine ⟨j, ?_, (showsRow_iff hk hg).mp hj⟩
      have heq : j.val + 1 = idNum (db.itemsOf g) (db.contentsOf g) := heq
      exact Fin.le_def.mpr (by omega)
  · rintro ⟨j, hkj, hj⟩
    have hblock : ∀ j : Fin 7, j ≠ 0 → j ∈ ([1, 2, 3, 4, 5, 6] : List (Fin 7)) := by decide
    have hjpos : j ≠ 0 := fun h => h0 (Fin.le_zero_iff.mp (h ▸ hkj))
    have hle : j.val + 1 ≤ idNum (db.itemsOf g) (db.contentsOf g) :=
      hmax (.inr ⟨j, ⟨hblock j hjpos, (showsRow_iff hk hg).mpr hj⟩, rfl⟩)
    have : k.val ≤ j.val := hkj
    omega

/-- **The row count.**  The number of rows of an opened group is that of its
last row with text exactly when every cell of the first column has, in its row
or below, a heading or a cell of another column that is not empty. -/
theorem rowNum_isGreatest_iff {s : App} (hs : Reachable s) (hg : s.db.itemsOf g ≠ [])
    {list : ViewController} {row : ℕ} (hrow : list.groupIdList[row]? = some g) {select : Reads}
    (hselect : select.succeed) :
    ∃ vc, list.didSelectRowAt row select s.db = some vc ∧
      (IsGreatest {n | n = 1 ∨ ∃ k : Fin 7, n = k.val + 1 ∧ s.db.RowHolds g k} vc.rowNum ↔
        ∀ k : Fin 7, k ≠ 0 →
          (∃ content ∈ s.db.contentsOf g, content.id = 0 ∧ content.content k ≠ "") →
          ∃ j, k ≤ j ∧ s.db.RowAsked g j) := by
  have hk := hs.inv.keys g
  refine ⟨_, didSelectRowAt_eq hrow select, ?_⟩
  rw [if_pos (show select.items ∧ select.contents from hselect)]
  have hcode := idNum_isGreatest (s.db.itemsOf g) (s.db.contentsOf g)
  -- the blocks ask about some of the rows that hold text
  rw [GuardedAssignments.isGreatest_iff_of_subset hcode]
  · constructor
    · rintro h k h0 ⟨content, hmem, -, hne⟩
      obtain ⟨n, hn, hle⟩ := h (k.val + 1) (.inr ⟨k, rfl, .inr ⟨content, hmem, hne⟩⟩)
      refine (lt_idNum_iff hk hg h0).mp (Nat.lt_of_succ_le (hle.trans (hcode.2 hn)))
    · rintro h n (rfl | ⟨k, rfl, hholds⟩)
      · exact ⟨1, Set.mem_insert _ _, le_rfl⟩
      · by_cases h0 : k = 0
        · subst h0
          exact ⟨1, Set.mem_insert _ _, le_rfl⟩
        · have hlater : ∃ j, k ≤ j ∧ s.db.RowAsked g j := by
            rcases Realm.rowHolds_iff.mp hholds with hasked | hfirst
            · exact ⟨k, le_rfl, hasked⟩
            · exact h k h0 hfirst
          exact ⟨_, hcode.1, (lt_idNum_iff hk hg h0).mpr hlater⟩
  · rintro n (rfl | ⟨k, ⟨-, hshows⟩, rfl⟩)
    · exact .inl rfl
    · exact .inr ⟨k, rfl, ((showsRow_iff hk hg).mp hshows).rowHolds⟩

/-- A comparison with a second row that has text in its first column only. -/
def firstColumnOnly : List Event :=
  [.addNewHikakuBtnDidTap true .ok, .addNewItemBtnDidTap .ok, .edit (.contentTF 0 1) "a",
    .saveBtnDidTap "" .ok .ok, .backBtnDidTap true]

theorem firstColumnOnly_isSome : (app.exec App.init firstColumnOnly).isSome = true := by decide

theorem rowNum_isGreatest_iff_firstColumnOnly : ∃ s vc, app.Run App.init firstColumnOnly s ∧
    s.list.didSelectRowAt 0 .ok s.db = some vc ∧
    (IsGreatest {n | n = 1 ∨ ∃ k : Fin 7, n = k.val + 1 ∧ s.db.RowHolds 1 k} vc.rowNum ↔
      ∀ k : Fin 7, k ≠ 0 →
        (∃ content ∈ s.db.contentsOf 1, content.id = 0 ∧ content.content k ≠ "") →
        ∃ j, k ≤ j ∧ s.db.RowAsked 1 j) := by
  have hrun := EventSystem.run_get_exec firstColumnOnly_isSome
  have hg : ((app.exec App.init firstColumnOnly).get firstColumnOnly_isSome).db.itemsOf 1 ≠ [] := by
    decide
  obtain ⟨vc, hvc, hiff⟩ := rowNum_isGreatest_iff ⟨_, hrun⟩ hg
    (show ((app.exec App.init firstColumnOnly).get firstColumnOnly_isSome).list.groupIdList[0]? =
      some 1 from rfl) (show Reads.ok.succeed from ⟨rfl, rfl⟩)
  exact ⟨_, vc, hrun, hvc, hiff⟩

/-- Its second row is not shown. -/
theorem firstColumnOnly_rowNum : ∃ s vc, app.Run App.init firstColumnOnly s ∧
    s.list.groupIdList[0]? = some 1 ∧ s.db.itemsOf 1 ≠ [] ∧
    s.list.didSelectRowAt 0 .ok s.db = some vc ∧
    ¬ IsGreatest {n | n = 1 ∨ ∃ k : Fin 7, n = k.val + 1 ∧ s.db.RowHolds 1 k} vc.rowNum := by
  have hholds : ((app.exec App.init firstColumnOnly).get firstColumnOnly_isSome).db.RowHolds 1 1 := by
    decide
  refine ⟨_, _, EventSystem.run_get_exec firstColumnOnly_isSome, rfl, by decide, rfl, ?_⟩
  intro h
  have hle : 2 ≤ 1 := h.2 (.inr ⟨1, rfl, hholds⟩)
  omega

end ViewController

end HikakuKun
