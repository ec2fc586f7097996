/-
What the list screen computes.

* `viewDidLoad_true`, `displayText_eq` — a rebuilt list, row by row;
* `idNum_isGreatest` — the row number of an opened group is the last row that
  passes the test of its block, or 1;
* `didSelectRowAt_eq`, `yesAction_eq` — a tap and a confirmed delete on a row
  with a group id behind it.
-/
import HikakuKun.GuardedAssignments
import HikakuKun.ViewController

namespace HikakuKun

namespace ViewController

variable {db : Realm} {list : ViewController} {row : ℕ} {g : ℤ}
  {items : List CompareItemRealm} {contents : List CompareContentsRealm}

/-! ### The rebuilt list -/

theorem foldl_appendRow (rows : List CompareItemRealm) (list : ViewController) :
    rows.foldl (appendRow db) list =
      ⟨list.displayList ++ rows.map (displayText db),
        list.groupIdList ++ rows.map (·.groupId)⟩ := by
  induction rows generalizing list with
  | nil => simp
  | cons item rows ih =>
    rw [List.foldl_cons, ih]
    simp [appendRow]

theorem viewDidLoad_true (db : Realm) (list : ViewController) : list.viewDidLoad true db =
    ⟨db.items.map (displayText db), db.items.map (·.groupId)⟩ := by
  rw [viewDidLoad, if_pos rfl, foldl_appendRow]
  rfl

theorem length_viewDidLoad (opens : Bool) (db : Realm) (list : ViewController) :
    (list.viewDidLoad opens db).displayList.length =
      (list.viewDidLoad opens db).groupIdList.length := by
  cases opens with
  | false => rfl
  | true =>
    rw [viewDidLoad_true]
    simp

/-- The first name is already in the text; each later one comes after a comma. -/
theorem foldl_appendName (text name : String) (i : ℕ) (contents : List CompareContentsRealm) :
    (contents.foldl appendName (text ++ name, i + 1)).1 =
      text ++ ", ".intercalate (name :: contents.map (·.name)) := by
  induction contents generalizing text name i with
  | nil => simp
  | cons content contents ih =>
    have hstep : appendName (text ++ name, i + 1) content =
        (text ++ name ++ ", " ++ content.name, i + 1 + 1) :=
      if_neg (Nat.succ_ne_zero i)
    rw [List.foldl_cons, hstep, ih, List.map_cons, String.intercalate_cons_cons]
    simp only [String.append_assoc]

theorem displayText_eq (db : Realm) (item : CompareItemRealm) :
    displayText db item = item.groupName ++ if db.contentsOf item.groupId = [] then "" else
      "  :  " ++ ", ".intercalate ((db.contentsOf item.groupId).map (·.name)) := by
  rw [displayText]
  cases db.contentsOf item.groupId with
  | nil => simp
  | cons content contents =>
    have hfirst : appendName (item.groupName, 0) content =
        (item.groupName ++ "  :  " ++ content.name, 0 + 1) := if_pos rfl
    rw [List.foldl_cons, hfirst, foldl_appendName, if_neg (List.cons_ne_nil _ _), List.map_cons,
      String.append_assoc]

/-! ### The row number -/

/-- The test of the block for row `k`. -/
def ShowsRow (items : List CompareItemRealm) (contents : List CompareContentsRealm)
    (k : Fin 7) : Prop :=
  items.head?.map (·.item k) ≠ some "" ∨ ∃ id ∈ [1, 2, 3, 4], cellShowsRow contents k id

instance (k : Fin 7) : Decidable (ShowsRow items contents k) :=
  inferInstanceAs (Decidable (_ ∨ _))

theorem rowNumBlock_eq (n : ℕ) (k : Fin 7) :
    rowNumBlock items contents n k = if ShowsRow items contents k then k.val + 1 else n := by
  unfold rowNumBlock
  by_cases hitem : items.head?.map (·.item k) ≠ some ""
  · rw [if_pos hitem, if_pos (.inl hitem)]
  · rw [if_neg hitem, GuardedAssignments.foldl_ite_const]
    refine if_congr ?_ rfl rfl
    constructor
    · exact .inr
    · exact fun h => h.resolve_left hitem

/-- **The row number.** -/
theorem idNum_isGreatest (items : List CompareItemRealm) (contents : List CompareContentsRealm) :
    IsGreatest (insert 1 ((fun k : Fin 7 => k.val + 1) ''
      {k | k ∈ ([1, 2, 3, 4, 5, 6] : List (Fin 7)) ∧ ShowsRow items contents k}))
      (idNum items contents) := by
  have hblocks : idNum items contents = ([1, 2, 3, 4, 5, 6] : List (Fin 7)).foldl
      (fun n k => if ShowsRow items contents k then k.val + 1 else n) 1 :=
    congrArg (fun step => List.foldl step 1 _) (funext₂ rowNumBlock_eq)
  rw [hblocks]
  exact GuardedAssignments.isGreatest_foldl_ite (by decide) (by decide)

theorem one_le_idNum : 1 ≤ idNum items contents :=
  (idNum_isGreatest items contents).2 (Set.mem_insert _ _)

theorem idNum_le_seven : idNum items contents ≤ 7 := by
  rcases (idNum_isGreatest items contents).1 with h | ⟨k, -, h⟩
  · omega
  · rw [← h]
    exact k.isLt

/-! ### Taps and deletes -/

theorem didSelectRowAt_eq (h : list.groupIdList[row]? = some g) (select : Reads) :
    list.didSelectRowAt row select db = some {
      groupId := g
      rowNum := if select.items ∧ select.contents then
          idNum (db.itemsOf g) (db.contentsOf g)
        else 1 } := by
  obtain ⟨ri, rc⟩ := select
  rw [didSelectRowAt, h]
  cases ri <;> cases rc <;> rfl

/-- The store after a confirmed delete of group `g`. -/
def deleted (delete : Delete) (g : ℤ) (db : Realm) : Realm :=
  if delete.opens ∧ delete.items ∧ delete.contents ∧ delete.write then deleteGroup g db else db

theorem yesAction_eq (hrow : row < list.displayList.length)
    (h : list.groupIdList[row]? = some g) (delete : Delete) :
    list.yesAction row delete db = some (deleted delete g db,
      { list with displayList := list.displayList.eraseIdx row }) := by
  obtain ⟨opens, ri, rc, write⟩ := delete
  rw [yesAction, if_pos hrow, deleted]
  simp only [h]
  cases opens <;> cases ri <;> cases rc <;> cases write <;> rfl

end ViewController

end HikakuKun
