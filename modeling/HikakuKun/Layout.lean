/-
The frames of the editor's grid.

`viewDidLoad` computes the two widths of the grid from `SAFE_AREA_WIDTH` and the
number of columns, and from them the frames of the headings, cells and memos in
the scroll view `itemsSV`, row by row; the + row button below them has a size of its
own.  CGFloat values are rational numbers here,
and `Int(...)` truncates them.

* `frames` — the frames, as the source assigns them;
* `mem_frames_iff` — each view that is shown has exactly one, given by `frame`.
-/
import Mathlib.Data.Rat.Floor
import HikakuKun.CompareMainVC

namespace HikakuKun

namespace Layout

def rightW : ℚ := 30

def itemH : ℤ := 30

/-- Cut off after two decimal places. -/
def floor2 (num : ℚ) : ℚ := ⌊num * 100⌋ / 100

/-- `Int(x)`. -/
def toInt (x : ℚ) : ℤ := if 0 ≤ x then ⌊x⌋ else ⌈x⌉

theorem toInt_of_nonneg {x : ℚ} (hx : 0 ≤ x) : toInt x = ⌊x⌋ := if_pos hx

/-- `CGRect(x:y:width:height:)`. -/
structure CGRect where
  x : ℤ
  y : ℤ
  width : ℤ
  height : ℤ
  deriving DecidableEq

structure CGSize where
  width : ℚ
  height : ℚ
  deriving DecidableEq

/-- The views that get a frame in the scroll view. -/
inductive Subview
  | itemTF (k : Fin 7)
  | contentTF (c : Fin 5) (k : Fin 7)
  | addNewItemBtn
  | memoLabel
  | memoTV (c : Fin 5)
  deriving DecidableEq

/-! ### Widths -/

def itemWidth (width : ℚ) : ℚ := floor2 ((width - rightW) / 6)

/-- `calc width`.  The first value stays for 5 columns, and for 4 on a narrow
screen. -/
def eachWidth (width : ℚ) (colNum : ℕ) : ℚ :=
  let eachWidth := floor2 ((width - itemWidth width) / 5)
  if colNum ≤ 2 then floor2 ((width - rightW - itemWidth width) / 2)
  else if width ≥ 800 then
    if colNum < 5 then floor2 ((width - rightW - itemWidth width) / colNum) else eachWidth
  else
    if colNum < 4 then floor2 ((width - rightW - itemWidth width) / colNum) else eachWidth

/-- The width of the scroll view, which leaves `RIGHT_W` for the + column
button. -/
def itemsSVWidth (width : ℚ) (colNum : ℕ) : ℚ :=
  if (width ≥ 800 ∧ colNum ≤ 4) ∨ (width < 800 ∧ colNum ≤ 3) then width - rightW else width

def contentSize (width : ℚ) (colNum rowNum : ℕ) : CGSize where
  width := itemWidth width + eachWidth width colNum * colNum
  height := itemH * (rowNum + 4)

/-- The left edge of the name field of column `c`. -/
def nameTFLeft (width : ℚ) (colNum : ℕ) (c : Fin 5) : ℚ :=
  c.val * eachWidth width colNum + itemWidth width

/-! ### Frames -/

section Frames

variable (width : ℚ) (colNum rowNum : ℕ)

/-- The left edge of the cells and the memo of column `c`: `Int(itemWidth)`,
`Int(itemWidth + eachWidth)`, `Int(itemWidth + 2*eachWidth)`, … -/
def columnX (c : Fin 5) : ℤ := toInt (itemWidth width + c.val * eachWidth width colNum)

def itemFrame (k : Fin 7) : Subview × CGRect :=
  (.itemTF k, ⟨0, k.val * itemH, toInt (itemWidth width), itemH⟩)

def contentFrame (k : Fin 7) (c : Fin 5) : Subview × CGRect :=
  (.contentTF c k, ⟨columnX width colNum c, k.val * itemH, toInt (eachWidth width colNum), itemH⟩)

/-- The frames of row `k`, with the question that the source asks for column 5. -/
def rowFrames (fifth : Bool) (k : Fin 7) : List (Subview × CGRect) :=
  [itemFrame width k, contentFrame width colNum k 0, contentFrame width colNum k 1]
  ++ (if colNum ≥ 3 then [contentFrame width colNum k 2] else [])
  ++ (if colNum ≥ 4 then [contentFrame width colNum k 3] else [])
  ++ (if fifth then [contentFrame width colNum k 4] else [])

/-- `item 2~`: `for itemNum in 1..<rowNum`. -/
def laterFrames : List (Subview × CGRect) :=
  if rowNum ≥ 2 then
    (List.range' 1 (rowNum - 1)).flatMap fun itemNum =>
      if h : itemNum < 7 then rowFrames width colNum (decide (colNum ≥ 5)) ⟨itemNum, h⟩ else []
  else []

/-- `add new item button`.  The button is removed from row 7 on. -/
def addNewItemBtnFrames : List (Subview × CGRect) :=
  if rowNum ≤ 6 then [(.addNewItemBtn, ⟨3, (rowNum + 3) * itemH + 3, 24, 24⟩)] else []

def memoLabelFrame : Subview × CGRect :=
  (.memoLabel, ⟨0, rowNum * itemH, toInt (itemWidth width), itemH * 3⟩)

def memoFrame (c : Fin 5) : Subview × CGRect :=
  (.memoTV c,
    ⟨columnX width colNum c, rowNum * itemH, toInt (eachWidth width colNum), itemH * 3⟩)

theorem sub_one_lt_five {col : ℕ} (h : 1 ≤ col ∧ col ≤ 5) : col - 1 < 5 := by omega

/-- `memo 1~colNum`: `for col in 1...colNum`. -/
def memoFrames : List (Subview × CGRect) :=
  (List.range' 1 colNum).flatMap fun col =>
    if h : 1 ≤ col ∧ col ≤ 5 then [memoFrame width colNum rowNum ⟨col - 1, sub_one_lt_five h⟩]
    else []

/-- The frames, in the order in which they are assigned. -/
def frames : List (Subview × CGRect) :=
  rowFrames width colNum (decide (colNum = 5)) 0
  ++ laterFrames width colNum rowNum
  ++ addNewItemBtnFrames rowNum
  ++ [memoLabelFrame width rowNum]
  ++ memoFrames width colNum rowNum

/-! ### Views shown -/

/-- The views of an editor with these numbers of columns and rows. -/
def Subview.Shown : Subview → Prop
  | .itemTF k => k.val < rowNum
  | .contentTF c k => c.val < colNum ∧ k.val < rowNum
  | .addNewItemBtn => rowNum ≤ 6
  | .memoLabel => True
  | .memoTV c => c.val < colNum

/-- The frame of a view. -/
def frame : Subview → CGRect
  | .itemTF k => ⟨0, k.val * itemH, toInt (itemWidth width), itemH⟩
  | .contentTF c k =>
    ⟨columnX width colNum c, k.val * itemH, toInt (eachWidth width colNum), itemH⟩
  | .addNewItemBtn => ⟨3, (rowNum + 3) * itemH + 3, 24, 24⟩
  | .memoLabel => ⟨0, rowNum * itemH, toInt (itemWidth width), itemH * 3⟩
  | .memoTV c =>
    ⟨columnX width colNum c, rowNum * itemH, toInt (eachWidth width colNum), itemH * 3⟩

end Frames

section Mem

variable {width : ℚ} {colNum rowNum : ℕ} {v : Subview} {r : CGRect}

theorem exists_column_iff {p : Fin 5 → Prop} : (∃ c, p c) ↔ p 0 ∨ p 1 ∨ p 2 ∨ p 3 ∨ p 4 := by
  simp only [Fin.exists_fin_succ, Fin.isValue, Fin.succ_zero_eq_one, Fin.succ_one_eq_two,
    Fin.reduceSucc, IsEmpty.exists_iff, or_false]

/-- A row has its heading and one cell for each column, whichever way the last
column is asked for. -/
theorem mem_rowFrames_iff (htwo : 2 ≤ colNum) {fifth : Bool} (hfifth : fifth = true ↔ 5 ≤ colNum)
    {k : Fin 7} :
    (v, r) ∈ rowFrames width colNum fifth k ↔
      (v, r) = itemFrame width k ∨
        ∃ c : Fin 5, c.val < colNum ∧ (v, r) = contentFrame width colNum k c := by
  have h0 : (0 : Fin 5).val < colNum := by
    show 0 < colNum
    omega
  have h1 : (1 : Fin 5).val < colNum := htwo
  have h2 : (2 : Fin 5).val < colNum ↔ colNum ≥ 3 := Iff.rfl
  have h3 : (3 : Fin 5).val < colNum ↔ colNum ≥ 4 := Iff.rfl
  have h4 : (4 : Fin 5).val < colNum ↔ fifth = true := hfifth.symm
  rw [exists_column_iff]
  simp only [rowFrames, List.mem_append, List.mem_cons, List.mem_ite_nil_right, List.not_mem_nil,
    or_false, or_assoc, h0, h1, h2, h3, h4, true_and]

theorem mem_laterFrames_iff (hrow : rowNum ≤ 7) :
    (v, r) ∈ laterFrames width colNum rowNum ↔
      ∃ k : Fin 7, 1 ≤ k.val ∧ k.val < rowNum ∧
        (v, r) ∈ rowFrames width colNum (decide (colNum ≥ 5)) k := by
  rw [laterFrames]
  split
  case isTrue h2 =>
    simp only [List.mem_flatMap, List.mem_range'_1]
    constructor
    · rintro ⟨itemNum, hmem, hframe⟩
      rw [dif_pos (by omega)] at hframe
      exact ⟨_, hmem.1, by show itemNum < rowNum; omega, hframe⟩
    · rintro ⟨k, hpos, hlt, hframe⟩
      refine ⟨k, ⟨hpos, by omega⟩, ?_⟩
      rwa [dif_pos k.isLt]
  case isFalse h2 =>
    constructor
    · intro h
      exact absurd h List.not_mem_nil
    · rintro ⟨k, hpos, hlt, -⟩
      omega

theorem mem_addNewItemBtnFrames_iff :
    (v, r) ∈ addNewItemBtnFrames rowNum ↔
      rowNum ≤ 6 ∧ (v, r) = (.addNewItemBtn, ⟨3, (rowNum + 3) * itemH + 3, 24, 24⟩) := by
  rw [addNewItemBtnFrames, List.mem_ite_nil_right, List.mem_singleton]

theorem mem_memoFrames_iff (hfive : colNum ≤ 5) :
    (v, r) ∈ memoFrames width colNum rowNum ↔
      ∃ c : Fin 5, c.val < colNum ∧ (v, r) = memoFrame width colNum rowNum c := by
  rw [memoFrames]
  simp only [List.mem_flatMap, List.mem_range'_1]
  constructor
  · rintro ⟨col, hmem, hframe⟩
    rw [dif_pos (by omega), List.mem_singleton] at hframe
    exact ⟨_, by show col - 1 < colNum; omega, hframe⟩
  · rintro ⟨c, hlt, hframe⟩
    refine ⟨c + 1, by omega, ?_⟩
    rw [dif_pos (by omega), List.mem_singleton, hframe]
    rfl

/-- **Frames.**  Exactly the views that are shown have a frame, and only one. -/
theorem mem_frames_iff (hcol : 2 ≤ colNum ∧ colNum ≤ 5) (hrow : 1 ≤ rowNum ∧ rowNum ≤ 7) :
    (v, r) ∈ frames width colNum rowNum ↔
      v.Shown colNum rowNum ∧ r = frame width colNum rowNum v := by
  have hrow1 : (decide (colNum = 5)) = true ↔ 5 ≤ colNum := by
    rw [decide_eq_true_iff]
    omega
  -- the first row and the later ones together
  have hrows : (v, r) ∈ rowFrames width colNum (decide (colNum = 5)) 0 ∨
      (v, r) ∈ laterFrames width colNum rowNum ↔ ∃ k : Fin 7, k.val < rowNum ∧
        ((v, r) = itemFrame width k ∨
          ∃ c : Fin 5, c.val < colNum ∧ (v, r) = contentFrame width colNum k c) := by
    rw [mem_laterFrames_iff hrow.2, mem_rowFrames_iff hcol.1 hrow1]
    constructor
    · rintro (h | ⟨k, -, hlt, h⟩)
      · exact ⟨0, hrow.1, h⟩
      · exact ⟨k, hlt, (mem_rowFrames_iff hcol.1 decide_eq_true_iff).mp h⟩
    · rintro ⟨k, hlt, h⟩
      by_cases h0 : k = 0
      · exact .inl (h0 ▸ h)
      · have hpos : 1 ≤ k.val := Nat.one_le_iff_ne_zero.mpr fun hk => h0 (Fin.ext hk)
        exact .inr ⟨k, hpos, hlt, (mem_rowFrames_iff hcol.1 decide_eq_true_iff).mpr h⟩
  simp only [frames, List.mem_append, hrows, mem_addNewItemBtnFrames_iff,
    mem_memoFrames_iff hcol.2, List.mem_singleton]
  cases v with
  | itemTF k => simp [itemFrame, contentFrame, memoLabelFrame, memoFrame, Subview.Shown, frame]
  | contentTF c k =>
    simp [itemFrame, contentFrame, memoLabelFrame, memoFrame, Subview.Shown, frame, and_assoc,
      and_left_comm]
  | addNewItemBtn =>
    simp [itemFrame, contentFrame, memoLabelFrame, memoFrame, Subview.Shown, frame]
  | memoLabel => simp [itemFrame, contentFrame, memoLabelFrame, memoFrame, Subview.Shown, frame]
  | memoTV c => simp [itemFrame, contentFrame, memoLabelFrame, memoFrame, Subview.Shown, frame]

/-- A view is shown exactly if it gets a frame, and it gets one only. -/
theorem shown_iff_existsUnique (hcol : 2 ≤ colNum ∧ colNum ≤ 5)
    (hrow : 1 ≤ rowNum ∧ rowNum ≤ 7) :
    v.Shown colNum rowNum ↔ ∃! r, (v, r) ∈ frames width colNum rowNum := by
  constructor
  · intro hv
    refine ⟨frame width colNum rowNum v, (mem_frames_iff hcol hrow).mpr ⟨hv, rfl⟩, ?_⟩
    intro r hr
    exact ((mem_frames_iff hcol hrow).mp hr).2
  · rintro ⟨r, hr, -⟩
    exact ((mem_frames_iff hcol hrow).mp hr).1

end Mem

end Layout

end HikakuKun
