/-
The layout of the editor's grid.

The widths are chosen by one set of branches and the width of the scroll view by
another; `exists_eachWidth_eq` is where they meet: a column has a share of what
the headings leave of the scroll view, one of at least as many shares as there
are columns.  A view of the grid is placed by its column, the headings being the
first, and by its band, the memos being the last.  The + row button below them has
a size of its own, which a content under 27 points does not hold.

* `x_add_width_le`, `y_add_height_le` — columns and bands follow one another;
* `le_contentSize_width_iff` — where the content holds the + row button;
* `grid_layout` — no overlaps, no gaps of more than a point, no column cut off.
-/
import HikakuKun.FloorTiling
import HikakuKun.Layout

namespace HikakuKun

namespace Layout

/-! ### Rectangles -/

namespace CGRect

/-- The point is in the rectangle, right and lower edges excluded. -/
def Contains (r : CGRect) (p q : ℚ) : Prop :=
  (r.x ≤ p ∧ p < r.x + r.width) ∧ (r.y ≤ q ∧ q < r.y + r.height)

def Overlaps (r r' : CGRect) : Prop := ∃ p q, r.Contains p q ∧ r'.Contains p q

/-- The rectangle lies within a content of this size. -/
structure Within (size : CGSize) (r : CGRect) : Prop where
  left : 0 ≤ r.x
  top : 0 ≤ r.y
  width : 0 ≤ r.width
  height : 0 ≤ r.height
  right : (r.x + r.width : ℚ) ≤ size.width
  bottom : (r.y + r.height : ℚ) ≤ size.height

variable {r r' : CGRect}

theorem Overlaps.symm (h : r.Overlaps r') : r'.Overlaps r := by
  obtain ⟨p, q, hr, hr'⟩ := h
  exact ⟨p, q, hr', hr⟩

theorem not_overlaps_of_x_le (h : r.x + r.width ≤ r'.x) : ¬ r.Overlaps r' := by
  rintro ⟨p, q, ⟨⟨-, hright⟩, -⟩, ⟨hleft, -⟩, -⟩
  have hcast : (r.x + r.width : ℚ) ≤ r'.x := by exact_mod_cast h
  linarith

theorem not_overlaps_of_y_le (h : r.y + r.height ≤ r'.y) : ¬ r.Overlaps r' := by
  rintro ⟨p, q, ⟨-, -, hbottom⟩, -, htop, -⟩
  have hcast : (r.y + r.height : ℚ) ≤ r'.y := by exact_mod_cast h
  linarith

end CGRect

/-! ### Widths -/

section Widths

variable {width : ℚ} {colNum rowNum : ℕ}

theorem floor2_eq_floorTo (num : ℚ) : floor2 num = FloorTiling.floorTo 100 num := by
  rw [floor2, FloorTiling.floorTo, Nat.cast_ofNat]

theorem floor2_le {num : ℚ} : floor2 num ≤ num := by
  rw [floor2_eq_floorTo]
  exact FloorTiling.floorTo_le (by omega)

/-- A number of hundredths below `num` is below its cut-off. -/
theorem le_floor2 {num q : ℚ} (z : ℤ) (hz : q = z / 100) (h : q ≤ num) : q ≤ floor2 num := by
  subst hz
  rw [floor2_eq_floorTo]
  exact FloorTiling.le_floorTo h (by decide)

theorem itemWidth_nonneg (hwidth : 30 ≤ width) : 0 ≤ itemWidth width := by
  rw [itemWidth, floor2_eq_floorTo, rightW]
  exact FloorTiling.floorTo_nonneg (by linarith)

/-- The share of the headings, of what the + column button leaves. -/
theorem itemWidth_le_share : itemWidth width ≤ (width - 30) / 6 := floor2_le

/-- The headings leave something of the scroll view. -/
theorem itemWidth_le (hwidth : 30 ≤ width) : itemWidth width ≤ itemsSVWidth width colNum := by
  have hshare := @itemWidth_le_share width
  rw [itemsSVWidth, rightW]
  split_ifs <;> linarith

theorem eachWidth_of_le_three (hcol : 2 ≤ colNum ∧ colNum ≤ 3) :
    eachWidth width colNum = floor2 ((width - rightW - itemWidth width) / colNum) := by
  rw [eachWidth]
  by_cases htwo : colNum ≤ 2
  · obtain rfl : colNum = 2 := by omega
    rw [if_pos htwo, Nat.cast_ofNat]
  · have hfour : colNum < 4 := by omega
    have hfive : colNum < 5 := by omega
    rw [if_neg htwo, if_pos hfour, if_pos hfive, ite_self]

theorem eachWidth_four : eachWidth width 4 =
    if width ≥ 800 then floor2 ((width - rightW - itemWidth width) / (4 : ℕ))
    else floor2 ((width - itemWidth width) / 5) := rfl

theorem eachWidth_five : eachWidth width 5 = floor2 ((width - itemWidth width) / 5) := by
  show (if width ≥ 800 then _ else _) = _
  exact ite_self _

theorem itemsSVWidth_of_le_three (hthree : colNum ≤ 3) :
    itemsSVWidth width colNum = width - rightW := by
  have hfour : colNum ≤ 4 := by omega
  rw [itemsSVWidth, if_pos]
  rcases le_or_gt 800 width with hwide | hnarrow
  · exact .inl ⟨hwide, hfour⟩
  · exact .inr ⟨hnarrow, hthree⟩

theorem itemsSVWidth_four : itemsSVWidth width 4 =
    if width ≥ 800 then width - rightW else width := by
  refine if_congr ?_ rfl rfl
  simp

theorem itemsSVWidth_five : itemsSVWidth width 5 = width := by
  rw [itemsSVWidth, if_neg]
  simp

/-- The branches on the column width agree with those on the scroll view. -/
theorem exists_eachWidth_eq (width : ℚ) (hcol : 2 ≤ colNum ∧ colNum ≤ 5) :
    ∃ m : ℕ, colNum ≤ m ∧
      eachWidth width colNum = floor2 ((itemsSVWidth width colNum - itemWidth width) / m) := by
  obtain hthree | rfl | rfl : colNum ≤ 3 ∨ colNum = 4 ∨ colNum = 5 := by omega
  · refine ⟨colNum, le_rfl, ?_⟩
    rw [eachWidth_of_le_three ⟨hcol.1, hthree⟩, itemsSVWidth_of_le_three hthree]
  · by_cases hwide : width ≥ 800
    · refine ⟨4, le_rfl, ?_⟩
      rw [eachWidth_four, itemsSVWidth_four, if_pos hwide, if_pos hwide]
    -- four columns of five: the scroll view takes the whole width
    · refine ⟨5, by omega, ?_⟩
      rw [eachWidth_four, itemsSVWidth_four, if_neg hwide, if_neg hwide, Nat.cast_ofNat]
  · refine ⟨5, le_rfl, ?_⟩
    rw [eachWidth_five, itemsSVWidth_five, Nat.cast_ofNat]

theorem eachWidth_nonneg (hwidth : 30 ≤ width) (hcol : 2 ≤ colNum ∧ colNum ≤ 5) :
    0 ≤ eachWidth width colNum := by
  obtain ⟨m, -, heq⟩ := exists_eachWidth_eq width hcol
  have hrest := @itemWidth_le _ colNum hwidth
  rw [heq, floor2_eq_floorTo]
  exact FloorTiling.floorTo_nonneg (div_nonneg (by linarith) (Nat.cast_nonneg m))

/-- The columns fit the scroll view. -/
theorem contentSize_width_le (hwidth : 30 ≤ width) (hcol : 2 ≤ colNum ∧ colNum ≤ 5) :
    itemWidth width + colNum * eachWidth width colNum ≤ itemsSVWidth width colNum := by
  obtain ⟨m, hm, heq⟩ := exists_eachWidth_eq width hcol
  have hrest := @itemWidth_le _ colNum hwidth
  have hshares : colNum * eachWidth width colNum ≤ itemsSVWidth width colNum - itemWidth width := by
    rw [heq, floor2_eq_floorTo]
    exact FloorTiling.mul_floorTo_div_le (by omega) (by linarith) hm (by omega)
  linarith

/-- The drawn columns are those of a tiling. -/
theorem columnX_eq (hwidth : 30 ≤ width) (hcol : 2 ≤ colNum ∧ colNum ≤ 5) (c : Fin 5) :
    columnX width colNum c = FloorTiling.left (itemWidth width) (eachWidth width colNum) c := by
  have hleft : 0 ≤ itemWidth width + c.val * eachWidth width colNum :=
    add_nonneg (itemWidth_nonneg hwidth)
      (mul_nonneg (Nat.cast_nonneg _) (eachWidth_nonneg hwidth hcol))
  exact toInt_of_nonneg hleft

end Widths

/-! ### Columns and bands -/

namespace Subview

/-- The column of a view, the headings and the memo label being the first. -/
def column : Subview → ℕ
  | itemTF _ => 0
  | contentTF c _ => c + 1
  | addNewItemBtn => 0
  | memoLabel => 0
  | memoTV c => c + 1

/-- The band of a view, the memos being below the rows and the + row button below
the memos. -/
def band (rowNum : ℕ) : Subview → ℕ
  | itemTF k => k
  | contentTF _ k => k
  | addNewItemBtn => rowNum + 1
  | memoLabel => rowNum
  | memoTV _ => rowNum

theorem contentTF_ne {c : Fin 5} {k : Fin 7} : contentTF c k ≠ addNewItemBtn := nofun

variable {colNum rowNum : ℕ} {v v' : Subview}

theorem band_le (hv : v.Shown colNum rowNum) (hgrid : v ≠ addNewItemBtn) :
    v.band rowNum ≤ rowNum := by
  cases v with
  | itemTF k => exact Nat.le_of_lt hv
  | contentTF c k => exact Nat.le_of_lt hv.2
  | addNewItemBtn => exact absurd rfl hgrid
  | memoLabel => exact le_rfl
  | memoTV c => exact le_rfl

theorem column_le (hv : v.Shown colNum rowNum) : v.column ≤ colNum := by
  cases v with
  | itemTF k => exact Nat.zero_le _
  | contentTF c k => exact hv.1
  | addNewItemBtn => exact Nat.zero_le _
  | memoLabel => exact Nat.zero_le _
  | memoTV c => exact hv

/-- A view is known by its column and its band. -/
theorem eq_of_column_band (hv : v.Shown colNum rowNum) (hv' : v'.Shown colNum rowNum)
    (hcolumn : v.column = v'.column) (hband : v.band rowNum = v'.band rowNum) : v = v' := by
  cases v <;> cases v' <;> grind [column, band, Shown]

end Subview

section Places

variable {width : ℚ} {colNum rowNum : ℕ} {v v' : Subview}

/-- Where a column is drawn. -/
def columnLeft (width : ℚ) (colNum : ℕ) : ℕ → ℤ
  | 0 => 0
  | c + 1 => FloorTiling.left (itemWidth width) (eachWidth width colNum) c

def columnWidth (width : ℚ) (colNum : ℕ) : ℕ → ℤ
  | 0 => ⌊itemWidth width⌋
  | _ + 1 => ⌊eachWidth width colNum⌋

theorem frame_x (hwidth : 30 ≤ width) (hcol : 2 ≤ colNum ∧ colNum ≤ 5)
    (hgrid : v ≠ .addNewItemBtn) :
    (frame width colNum rowNum v).x = columnLeft width colNum v.column := by
  cases v with
  | itemTF k => rfl
  | contentTF c k => exact columnX_eq hwidth hcol c
  | addNewItemBtn => exact absurd rfl hgrid
  | memoLabel => rfl
  | memoTV c => exact columnX_eq hwidth hcol c

theorem frame_width (hwidth : 30 ≤ width) (hcol : 2 ≤ colNum ∧ colNum ≤ 5)
    (hgrid : v ≠ .addNewItemBtn) :
    (frame width colNum rowNum v).width = columnWidth width colNum v.column := by
  cases v with
  | itemTF k => exact toInt_of_nonneg (itemWidth_nonneg hwidth)
  | contentTF c k => exact toInt_of_nonneg (eachWidth_nonneg hwidth hcol)
  | addNewItemBtn => exact absurd rfl hgrid
  | memoLabel => exact toInt_of_nonneg (itemWidth_nonneg hwidth)
  | memoTV c => exact toInt_of_nonneg (eachWidth_nonneg hwidth hcol)

theorem frame_y (hgrid : v ≠ .addNewItemBtn) :
    (frame width colNum rowNum v).y = v.band rowNum * itemH := by
  cases v with
  | itemTF k => rfl
  | contentTF c k => rfl
  | addNewItemBtn => exact absurd rfl hgrid
  | memoLabel => rfl
  | memoTV c => rfl

theorem frame_height (hv : v.Shown colNum rowNum) (hgrid : v ≠ .addNewItemBtn) :
    (frame width colNum rowNum v).height =
      if v.band rowNum < rowNum then itemH else itemH * 3 := by
  cases v with
  | itemTF k => exact (if_pos hv).symm
  | contentTF c k => exact (if_pos hv.2).symm
  | addNewItemBtn => exact absurd rfl hgrid
  | memoLabel => exact (if_neg (Nat.lt_irrefl _)).symm
  | memoTV c => exact (if_neg (Nat.lt_irrefl _)).symm

/-- A column ends before the next ones start. -/
theorem columnLeft_add_columnWidth_le (hwidth : 30 ≤ width) (hcol : 2 ≤ colNum ∧ colNum ≤ 5)
    {j j' : ℕ} (h : j < j') :
    columnLeft width colNum j + columnWidth width colNum j ≤ columnLeft width colNum j' := by
  have heach := eachWidth_nonneg hwidth hcol
  obtain ⟨c', rfl⟩ := Nat.exists_eq_add_one_of_ne_zero (show j' ≠ 0 by omega)
  cases j with
  | zero =>
    rw [columnLeft, columnWidth, zero_add, ← FloorTiling.left_zero]
    exact FloorTiling.left_mono heach (Nat.zero_le c')
  | succ c => exact FloorTiling.left_add_floor_le_of_lt heach (by omega)

theorem x_add_width_le (hwidth : 30 ≤ width) (hcol : 2 ≤ colNum ∧ colNum ≤ 5)
    (hgrid : v ≠ .addNewItemBtn) (hgrid' : v' ≠ .addNewItemBtn) (h : v.column < v'.column) :
    (frame width colNum rowNum v).x + (frame width colNum rowNum v).width ≤
      (frame width colNum rowNum v').x := by
  rw [frame_x hwidth hcol hgrid, frame_width hwidth hcol hgrid, frame_x hwidth hcol hgrid']
  exact columnLeft_add_columnWidth_le hwidth hcol h

/-- A band ends before the next ones start. -/
theorem y_add_height_le (hv : v.Shown colNum rowNum) (hgrid : v ≠ .addNewItemBtn)
    (hv' : v'.Shown colNum rowNum) (hgrid' : v' ≠ .addNewItemBtn)
    (h : v.band rowNum < v'.band rowNum) :
    (frame width colNum rowNum v).y + (frame width colNum rowNum v).height ≤
      (frame width colNum rowNum v').y := by
  have hle := Subview.band_le hv' hgrid'
  rw [frame_y hgrid, frame_height hv hgrid, if_pos (by omega), frame_y hgrid', itemH]
  omega

/-- The grid ends above the + row button. -/
theorem y_add_height_le_addNewItemBtn (hv : v.Shown colNum rowNum)
    (hgrid : v ≠ .addNewItemBtn) :
    (frame width colNum rowNum v).y + (frame width colNum rowNum v).height ≤
      (frame width colNum rowNum .addNewItemBtn).y := by
  have hband := Subview.band_le hv hgrid
  rw [frame_y hgrid, frame_height hv hgrid, itemH]
  show _ ≤ ((rowNum : ℤ) + 3) * 30 + 3
  split
  · omega
  · omega

/-- **No overlaps.** -/
theorem not_overlaps (hwidth : 30 ≤ width) (hcol : 2 ≤ colNum ∧ colNum ≤ 5)
    (hv : v.Shown colNum rowNum) (hv' : v'.Shown colNum rowNum) (hne : v ≠ v') :
    ¬ (frame width colNum rowNum v).Overlaps (frame width colNum rowNum v') := by
  by_cases hgrid : v = .addNewItemBtn
  · subst hgrid
    exact fun h => CGRect.not_overlaps_of_y_le
      (y_add_height_le_addNewItemBtn hv' (Ne.symm hne)) h.symm
  by_cases hgrid' : v' = .addNewItemBtn
  · subst hgrid'
    exact CGRect.not_overlaps_of_y_le (y_add_height_le_addNewItemBtn hv hgrid)
  rcases lt_trichotomy v.column v'.column with hlt | hcolumn | hgt
  · exact CGRect.not_overlaps_of_x_le (x_add_width_le hwidth hcol hgrid hgrid' hlt)
  -- in one column they are in different bands
  · rcases lt_trichotomy (v.band rowNum) (v'.band rowNum) with hlt | hband | hgt
    · exact CGRect.not_overlaps_of_y_le (y_add_height_le hv hgrid hv' hgrid' hlt)
    · exact absurd (Subview.eq_of_column_band hv hv' hcolumn hband) hne
    · exact fun h =>
        CGRect.not_overlaps_of_y_le (y_add_height_le hv' hgrid' hv hgrid hgt) h.symm
  · exact fun h =>
      CGRect.not_overlaps_of_x_le (x_add_width_le hwidth hcol hgrid' hgrid hgt) h.symm

theorem columnLeft_nonneg (hwidth : 30 ≤ width) (hcol : 2 ≤ colNum ∧ colNum ≤ 5) (j : ℕ) :
    0 ≤ columnLeft width colNum j := by
  cases j with
  | zero => exact le_rfl
  | succ c =>
    exact Int.floor_nonneg.mpr (add_nonneg (itemWidth_nonneg hwidth)
      (mul_nonneg (Nat.cast_nonneg c) (eachWidth_nonneg hwidth hcol)))

theorem columnWidth_nonneg (hwidth : 30 ≤ width) (hcol : 2 ≤ colNum ∧ colNum ≤ 5) (j : ℕ) :
    0 ≤ columnWidth width colNum j := by
  cases j with
  | zero => exact Int.floor_nonneg.mpr (itemWidth_nonneg hwidth)
  | succ c => exact Int.floor_nonneg.mpr (eachWidth_nonneg hwidth hcol)

/-- The columns end within the content. -/
theorem columnLeft_add_columnWidth_le_total (hwidth : 30 ≤ width)
    (hcol : 2 ≤ colNum ∧ colNum ≤ 5) {j : ℕ} (hj : j ≤ colNum) :
    (columnLeft width colNum j + columnWidth width colNum j : ℚ) ≤
      itemWidth width + colNum * eachWidth width colNum := by
  have heach := eachWidth_nonneg hwidth hcol
  cases j with
  | zero =>
    have hcolumns : 0 ≤ colNum * eachWidth width colNum := mul_nonneg (Nat.cast_nonneg _) heach
    have hfloor := Int.floor_le (itemWidth width)
    rw [columnLeft, columnWidth, Int.cast_zero]
    linarith
  | succ c => exact FloorTiling.left_add_floor_le_total heach hj

/-- **No view outside.**  None of the grid. -/
theorem frame_within (hwidth : 30 ≤ width) (hcol : 2 ≤ colNum ∧ colNum ≤ 5)
    (hv : v.Shown colNum rowNum) (hgrid : v ≠ .addNewItemBtn) :
    (frame width colNum rowNum v).Within (contentSize width colNum rowNum) := by
  have hx : (frame width colNum rowNum v).x = _ := frame_x hwidth hcol hgrid
  have hw : (frame width colNum rowNum v).width = _ := frame_width hwidth hcol hgrid
  have hy : (frame width colNum rowNum v).y = _ := frame_y hgrid
  have hh : (frame width colNum rowNum v).height = _ := frame_height hv hgrid
  have hband := Subview.band_le hv hgrid
  have hbottom : (frame width colNum rowNum v).y + (frame width colNum rowNum v).height ≤
      itemH * (rowNum + 4) := by
    rw [hy, hh, itemH]
    split
    · omega
    · omega
  refine ⟨?_, ?_, ?_, ?_, ?_, ?_⟩
  · rw [hx]
    exact columnLeft_nonneg hwidth hcol _
  · rw [hy, itemH]
    omega
  · rw [hw]
    exact columnWidth_nonneg hwidth hcol _
  · rw [hh, itemH]
    split
    · omega
    · omega
  · rw [hx, hw, contentSize, mul_comm (eachWidth width colNum)]
    exact columnLeft_add_columnWidth_le_total hwidth hcol (Subview.column_le hv)
  · show ((frame width colNum rowNum v).y + (frame width colNum rowNum v).height : ℚ) ≤
      (itemH : ℚ) * (rowNum + 4)
    exact_mod_cast hbottom

end Places

/-! ### The + row button -/

section AddNewItemBtn

variable {width : ℚ} {colNum rowNum : ℕ}

/-- The button lies within the content if the content is wide enough. -/
theorem addNewItemBtn_within_iff :
    (frame width colNum rowNum .addNewItemBtn).Within (contentSize width colNum rowNum) ↔
      27 ≤ (contentSize width colNum rowNum).width := by
  have hright : ((3 : ℤ) + (24 : ℤ) : ℚ) = 27 := by norm_num
  constructor
  · intro h
    exact hright.symm.le.trans h.right
  · intro h
    have hnonneg : ∀ n : ℕ, (0 : ℤ) ≤ n := Int.natCast_nonneg
    have htop : 0 ≤ ((rowNum : ℤ) + 3) * itemH + 3 := by
      rw [itemH]
      omega
    have hbottom : ((rowNum : ℤ) + 3) * itemH + 3 + 24 ≤ itemH * (rowNum + 4) := by
      rw [itemH]
      omega
    refine ⟨hnonneg 3, htop, hnonneg 24, hnonneg 24, hright.le.trans h, ?_⟩
    show ((((rowNum : ℤ) + 3) * itemH + 3 : ℤ) + (24 : ℤ) : ℚ) ≤ (itemH : ℚ) * (rowNum + 4)
    exact_mod_cast hbottom

theorem le_contentSize_width_iff_of_le_three (hwidth : 30 ≤ width)
    (hcol : 2 ≤ colNum ∧ colNum ≤ 3) :
    27 ≤ (contentSize width colNum rowNum).width ↔ 57 ≤ width := by
  have hfit := @contentSize_width_le _ colNum hwidth ⟨hcol.1, by omega⟩
  have hshare := @itemWidth_le_share width
  rw [itemsSVWidth_of_le_three hcol.2, rightW] at hfit
  rw [contentSize, mul_comm]
  constructor
  · intro h
    linarith
  · intro hwide
    have hitem : 9 / 2 ≤ itemWidth width :=
      le_floor2 450 (by norm_num) (by rw [rightW]; linarith)
    rw [eachWidth_of_le_three hcol, rightW]
    obtain rfl | rfl : colNum = 2 ∨ colNum = 3 := by omega
    · have heach : 45 / 4 ≤ floor2 ((width - 30 - itemWidth width) / (2 : ℕ)) :=
        le_floor2 1125 (by norm_num) (by rw [Nat.cast_ofNat]; linarith)
      rw [Nat.cast_ofNat] at *
      linarith
    · have heach : 15 / 2 ≤ floor2 ((width - 30 - itemWidth width) / (3 : ℕ)) :=
        le_floor2 750 (by norm_num) (by rw [Nat.cast_ofNat]; linarith)
      rw [Nat.cast_ofNat] at *
      linarith

theorem le_contentSize_width_iff_four (hwidth : 30 ≤ width) :
    27 ≤ (contentSize width 4 rowNum).width ↔ 168 / 5 ≤ width := by
  have hnonneg := itemWidth_nonneg hwidth
  have hshare := @itemWidth_le_share width
  rw [contentSize, eachWidth_four, rightW, Nat.cast_ofNat]
  by_cases hlarge : width ≥ 800
  · rw [if_pos hlarge]
    have heach : 27 / 4 ≤ floor2 ((width - 30 - itemWidth width) / 4) :=
      le_floor2 675 (by norm_num) (by linarith)
    constructor
    · intro _
      linarith
    · intro _
      linarith
  · rw [if_neg hlarge]
    constructor
    · intro h
      have heach : floor2 ((width - itemWidth width) / 5) ≤ (width - itemWidth width) / 5 :=
        floor2_le
      linarith
    · intro hwide
      have hitem : 3 / 5 ≤ itemWidth width :=
        le_floor2 60 (by norm_num) (by rw [rightW]; linarith)
      have heach : 33 / 5 ≤ floor2 ((width - itemWidth width) / 5) :=
        le_floor2 660 (by norm_num) (by linarith)
      linarith

theorem le_contentSize_width_five (hwidth : 30 ≤ width) :
    27 ≤ (contentSize width 5 rowNum).width := by
  have hnonneg := itemWidth_nonneg hwidth
  have hshare := @itemWidth_le_share width
  have heach : 6 ≤ floor2 ((width - itemWidth width) / 5) :=
    le_floor2 600 (by norm_num) (by linarith)
  rw [contentSize, eachWidth_five, Nat.cast_ofNat]
  linarith

/-- Where the content is 27 points wide.  With five columns it always is. -/
theorem le_contentSize_width_iff (hwidth : 30 ≤ width) (hcol : 2 ≤ colNum ∧ colNum ≤ 5) :
    27 ≤ (contentSize width colNum rowNum).width ↔
      (colNum ≤ 3 → 57 ≤ width) ∧ (colNum = 4 → 168 / 5 ≤ width) := by
  obtain hthree | rfl | rfl : colNum ≤ 3 ∨ colNum = 4 ∨ colNum = 5 := by omega
  · have hfour : colNum ≠ 4 := by omega
    rw [le_contentSize_width_iff_of_le_three hwidth ⟨hcol.1, hthree⟩]
    simp [hthree, hfour]
  · rw [le_contentSize_width_iff_four hwidth]
    simp
  · simp [le_contentSize_width_five hwidth]

end AddNewItemBtn

/-! ### The grid -/

/-- What the layout of the grid promises. -/
structure GridLayout (width : ℚ) (colNum rowNum : ℕ) : Prop where
  /-- The views that are shown have a frame, one each, and no others have. -/
  hasFrame : ∀ v : Subview,
    v.Shown colNum rowNum ↔ ∃! r, (v, r) ∈ frames width colNum rowNum
  apart : ∀ v v' r r', (v, r) ∈ frames width colNum rowNum → (v', r') ∈ frames width colNum rowNum →
    v ≠ v' → ¬ r.Overlaps r'
  /-- Neighbouring cells of a row leave a gap of 1 point at most. -/
  adjacent : ∀ c c' k r r', (.contentTF c k, r) ∈ frames width colNum rowNum →
    (.contentTF c' k, r') ∈ frames width colNum rowNum → c'.val = c.val + 1 →
    r.x + r.width ≤ r'.x ∧ r'.x ≤ r.x + r.width + 1
  /-- A cell starts where its name field does, or less than 1 point before. -/
  underName : ∀ c k r, (.contentTF c k, r) ∈ frames width colNum rowNum →
    nameTFLeft width colNum c - 1 < r.x ∧ (r.x : ℚ) ≤ nameTFLeft width colNum c
  inside : ∀ v r, (v, r) ∈ frames width colNum rowNum → v ≠ .addNewItemBtn →
    r.Within (contentSize width colNum rowNum)
  /-- The + row button has a width of its own, for which a content may be too narrow. -/
  addNewItemBtn : ∀ r, (.addNewItemBtn, r) ∈ frames width colNum rowNum →
    (r.Within (contentSize width colNum rowNum) ↔
      (colNum ≤ 3 → 57 ≤ width) ∧ (colNum = 4 → 168 / 5 ≤ width))
  contentWidth : (contentSize width colNum rowNum).width =
    itemWidth width + colNum * eachWidth width colNum
  notCut : (contentSize width colNum rowNum).width ≤ itemsSVWidth width colNum

/-- **Grid layout.**  On every safe area at least 30 points wide. -/
theorem grid_layout {width : ℚ} {colNum rowNum : ℕ} (hwidth : 30 ≤ width)
    (hcol : 2 ≤ colNum ∧ colNum ≤ 5) (hrow : 1 ≤ rowNum ∧ rowNum ≤ 7) :
    GridLayout width colNum rowNum where
  hasFrame v := shown_iff_existsUnique hcol hrow
  apart v v' r r' hv hv' hne := by
    obtain ⟨hshown, rfl⟩ := (mem_frames_iff hcol hrow).mp hv
    obtain ⟨hshown', rfl⟩ := (mem_frames_iff hcol hrow).mp hv'
    exact not_overlaps hwidth hcol hshown hshown' hne
  adjacent c c' k r r' hv hv' hc := by
    obtain ⟨-, rfl⟩ := (mem_frames_iff hcol hrow).mp hv
    obtain ⟨-, rfl⟩ := (mem_frames_iff hcol hrow).mp hv'
    have hgrid := Subview.contentTF_ne (c := c) (k := k)
    have hgrid' := Subview.contentTF_ne (c := c') (k := k)
    rw [frame_x hwidth hcol hgrid, frame_width hwidth hcol hgrid, frame_x hwidth hcol hgrid']
    simp only [Subview.column, hc]
    exact ⟨FloorTiling.left_add_floor_le c.val, FloorTiling.left_succ_le c.val⟩
  underName c k r hv := by
    obtain ⟨-, rfl⟩ := (mem_frames_iff hcol hrow).mp hv
    have hle := Int.floor_le (itemWidth width + c.val * eachWidth width colNum)
    have hlt := Int.lt_floor_add_one (itemWidth width + c.val * eachWidth width colNum)
    rw [frame_x hwidth hcol Subview.contentTF_ne, nameTFLeft]
    simp only [Subview.column, columnLeft, FloorTiling.left]
    constructor
    · linarith
    · linarith
  inside v r hv hgrid := by
    obtain ⟨hshown, rfl⟩ := (mem_frames_iff hcol hrow).mp hv
    exact frame_within hwidth hcol hshown hgrid
  addNewItemBtn r hv := by
    obtain ⟨-, rfl⟩ := (mem_frames_iff hcol hrow).mp hv
    rw [addNewItemBtn_within_iff, le_contentSize_width_iff hwidth hcol]
  contentWidth := congrArg (itemWidth width + ·) (mul_comm _ _)
  notCut := by
    rw [contentSize, mul_comm]
    exact contentSize_width_le hwidth hcol

theorem grid_layout_threeColumns : GridLayout 375 3 2 :=
  grid_layout (by norm_num) (by omega) (by omega)

/-- A safe area of 50 points leaves the + row button 20. -/
theorem grid_layout_not_all_within :
    ¬ ∀ v r, (v, r) ∈ frames 50 2 1 → r.Within (contentSize 50 2 1) := by
  intro h
  have hmem : (.addNewItemBtn, frame 50 2 1 .addNewItemBtn) ∈ frames 50 2 1 :=
    (mem_frames_iff (by omega) (by omega)).mpr ⟨show 1 ≤ 6 by omega, rfl⟩
  have hwide := (le_contentSize_width_iff_of_le_three (by norm_num) (by omega)).mp
    (addNewItemBtn_within_iff.mp (h _ _ hmem))
  norm_num at hwide

-- the gap of 1 point is there: 57 + 95 = 152
example : (rowFrames 375 3 false 0).map (fun v => (v.2.x, v.2.width)) =
    [(0, 57), (57, 95), (153, 95), (249, 95)] := by
  decide +kernel

end Layout

end HikakuKun
