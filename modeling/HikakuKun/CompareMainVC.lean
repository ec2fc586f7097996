/-
The editor screen: its fields, `viewDidLoad`, and the + column / + row taps.

The source declares one text field per cell (`contentTF_1_01`, …); here
`Field` names them by column and row, counted from 0, so column `c` shows the
content record with `id = c` and row `k` is the source's row `k + 1`.

`viewDidLoad` is split along the source's own headings.  Each part assigns
texts under the conditions of its part of the source; attributes that do not
reach a text, a count or a button (colours, placeholders, constraints) are
left out.  A function returning `Option` answers `none` where the source traps.
-/
import Mathlib.Algebra.GroupWithZero.Nat
import Mathlib.Data.Rat.Defs
import HikakuKun.Memory
import HikakuKun.RealmClasses

namespace HikakuKun

-- named, so that a literal column or row is the same term in every module
instance neZero_columns : NeZero 5 := ⟨Nat.succ_ne_zero 4⟩

instance neZero_rows : NeZero 7 := ⟨Nat.succ_ne_zero 6⟩

/-- The text fields and text views of the editor. -/
inductive Field
  | groupNameTF
  | nameTF (c : Fin 5)
  | itemTF (k : Fin 7)
  | contentTF (c : Fin 5) (k : Fin 7)
  | memoTV (c : Fin 5)
  deriving DecidableEq

/-- What each field reads back. -/
abbrev Texts := Field → String

/-- `field.text = value`.  A field that was assigned nil reads back as the
empty string. -/
def setText (t : Texts) (f : Field) (value : Option String) : Texts :=
  Function.update t f (value.getD "")

/-- Whether the `try Realm()` of `getItems` and of `getContentsList` succeeds. -/
structure Reads where
  items : Bool
  contents : Bool
  deriving DecidableEq

/-- The editor.  `addNewNameBtn` and `addNewItemBtn` say whether the button is
attached to the view on screen. -/
structure CompareMainVC where
  groupId : ℤ := -1
  colNum : ℕ := 2
  rowNum : ℕ := 1
  items : Option (Results CompareItemRealm) := none
  contents : Option (Results CompareContentsRealm) := none
  texts : Texts := fun _ => ""
  addNewNameBtn : Bool := false
  addNewItemBtn : Bool := false

namespace CompareMainVC

open CompareItemRealm (getItems)
open CompareContentsRealm (getContentsList firstWithId)

/-- The fields the user can type into. -/
def visible (vc : CompareMainVC) : Field → Prop
  | .groupNameTF => True
  | .nameTF c => c.val < vc.colNum
  | .itemTF k => k.val < vc.rowNum
  | .contentTF c k => c.val < vc.colNum ∧ k.val < vc.rowNum
  | .memoTV c => c.val < vc.colNum

instance (vc : CompareMainVC) : (f : Field) → Decidable (vc.visible f)
  | .groupNameTF => .isTrue trivial
  | .nameTF c => inferInstanceAs (Decidable (c.val < vc.colNum))
  | .itemTF k => inferInstanceAs (Decidable (k.val < vc.rowNum))
  | .contentTF c k => inferInstanceAs (Decidable (c.val < vc.colNum ∧ k.val < vc.rowNum))
  | .memoTV c => inferInstanceAs (Decidable (c.val < vc.colNum))

/-- The user replaces the text of a field. -/
def edit (f : Field) (text : String) (vc : CompareMainVC) : CompareMainVC :=
  { vc with texts := setText vc.texts f (some text) }

/-! ### viewDidLoad -/

/-- `get items and contents`.  When a query throws, the results loaded so far
are kept. -/
def loadResults (reads : Reads) (db : Realm) (vc : CompareMainVC) : Option CompareMainVC :=
  match getItems reads.items vc.groupId with
  | .error _ => some vc
  | .ok items =>
    match getContentsList reads.contents vc.groupId with
    | .error _ => some { vc with items := some items }
    | .ok contents =>
      let vc := { vc with items := some items, contents := some contents }
      let stored := db.contentsOf contents.groupId
      if stored.length > 1 then
        -- the last id decides, but the count is what is assigned
        stored.getLast?.map fun last =>
          if last.id + 1 > vc.colNum then { vc with colNum := stored.length } else vc
      else some vc

/-- `item 1`.  The first two cells are assigned only under a non-empty heading. -/
def loadRow1 (items : List CompareItemRealm) (contents : List CompareContentsRealm)
    (colNum : ℕ) (t : Texts) : Texts :=
  let t := match items.head? with
    | some item =>
      if item.item 0 ≠ "" then
        let t := setText t (.itemTF 0) (some (item.item 0))
        let t := setText t (.contentTF 0 0) (contents.head?.map (·.content 0))
        setText t (.contentTF 1 0) ((firstWithId contents 1).map (·.content 0))
      else t
    | none => t
  let t := if colNum ≥ 3 then
      setText t (.contentTF 2 0) ((firstWithId contents 2).map (·.content 0))
    else t
  let t := if colNum ≥ 4 then
      setText t (.contentTF 3 0) ((firstWithId contents 3).map (·.content 0))
    else t
  -- the last column asks for equality
  if colNum = 5 then
    setText t (.contentTF 4 0) ((firstWithId contents 4).map (·.content 0))
  else t

/-- The heading of row `k`, assigned when there is an item record. -/
def loadItem (items : List CompareItemRealm) (k : Fin 7) (t : Texts) : Texts :=
  match items.head? with
  | some item => setText t (.itemTF k) (some (item.item k))
  | none => t

/-- A cell of row `k`, assigned when its column has a record. -/
def loadContent (contents : List CompareContentsRealm) (k : Fin 7) (t : Texts) (c : Fin 5) :
    Texts :=
  match firstWithId contents c with
  | some content => setText t (.contentTF c k) (some (content.content k))
  | none => t

/-- One case of the switch of `item 2~`: the heading and the five cells of row
`k`. -/
def loadRow (items : List CompareItemRealm) (contents : List CompareContentsRealm)
    (k : Fin 7) (t : Texts) : Texts :=
  (List.finRange 5).foldl (loadContent contents k) (loadItem items k t)

/-- `item 2~`: `for itemNum in 1..<rowNum`, with cases 1 to 6. -/
def loadRows (items : List CompareItemRealm) (contents : List CompareContentsRealm)
    (rowNum : ℕ) (t : Texts) : Texts :=
  if rowNum ≥ 2 then
    (List.range' 1 (rowNum - 1)).foldl (fun t itemNum =>
      if h : itemNum < 7 then loadRow items contents ⟨itemNum, h⟩ t else t) t
  else t

/-- `switch n` with a case for each of the columns 1 to 5, and a default that
does nothing. -/
def switchColumn (n : ℕ) (body : Fin 5 → Texts) (t : Texts) : Texts :=
  if h : 1 ≤ n ∧ n ≤ 5 then body ⟨n - 1, by omega⟩ else t

/-- `memo 1~colNum`: `for col in 1...colNum`, a range that must not be empty. -/
def loadMemos (contents : List CompareContentsRealm) (colNum : ℕ) (t : Texts) : Option Texts :=
  if colNum ≥ 1 then
    some ((List.range' 1 colNum).foldl (fun t col =>
      switchColumn col
        (fun c => setText t (.memoTV c) ((firstWithId contents c).map (·.memo))) t) t)
  else none

/-- `gourp name`. -/
def loadGroupName (items : List CompareItemRealm) (t : Texts) : Texts :=
  if items.length > 0 then setText t .groupNameTF (items.head?.map (·.groupName)) else t

/-- Names 1 and 2: a forced unwrap of the record, then an assignment unless
the stored name is empty. -/
def loadName (c : Fin 5) (content : Option CompareContentsRealm) (t : Texts) : Option Texts :=
  content.map fun content =>
    if content.name ≠ "" then setText t (.nameTF c) (some content.name) else t

/-- Names `3~`: `for nameNum in 3...colNum`. -/
def loadNames3 (contents : List CompareContentsRealm) (colNum : ℕ) (t : Texts) : Texts :=
  if colNum ≥ 3 then
    (List.range' 3 (colNum - 2)).foldl (fun t nameNum =>
      switchColumn nameNum (fun c =>
        match firstWithId contents c with
        | some content => setText t (.nameTF c) (some content.name)
        | none => t) t) t
  else t

def loadNames (contents : List CompareContentsRealm) (colNum : ℕ) (t : Texts) : Option Texts :=
  (if contents.length > 0 then loadName 0 contents.head? t else some t).bind fun t =>
  (if contents.length ≥ 2 then loadName 1 (firstWithId contents 1) t else some t).map fun t =>
  loadNames3 contents colNum t

/-- The condition under which the + column button is added. -/
def addsNewNameBtn (width : ℚ) (colNum : ℕ) : Bool :=
  (width ≥ 800 ∧ colNum ≤ 4) ∨ (width < 800 ∧ colNum ≤ 3)

/-- `viewDidLoad`, with `width` the value of `SAFE_AREA_WIDTH`.  The results
are implicitly unwrapped: the first use of results never loaded traps. -/
def viewDidLoad (reads : Reads) (width : ℚ) (db : Realm) (vc : CompareMainVC) :
    Option CompareMainVC := do
  let vc ← vc.loadResults reads db
  let items ← vc.items.map fun results => db.itemsOf results.groupId
  let contents ← vc.contents.map fun results => db.contentsOf results.groupId
  let t := loadRow1 items contents vc.colNum vc.texts
  let t := loadRows items contents vc.rowNum t
  let t ← loadMemos contents vc.colNum t
  let t := loadGroupName items t
  let t ← loadNames contents vc.colNum t
  -- the + row button is removed from row 7 on; the + column button is only added
  return { vc with
    texts := t
    addNewItemBtn := decide (vc.rowNum ≤ 6)
    addNewNameBtn := vc.addNewNameBtn || addsNewNameBtn width vc.colNum }

/-- `loadView` puts an empty view on screen.  The + row button hangs in
`itemsSV`, which is kept and added again by `viewDidLoad`. -/
def loadView (vc : CompareMainVC) : CompareMainVC := { vc with addNewNameBtn := false }

/-! ### The + column and + row taps -/

def nameFields : List Field := (List.finRange 5).map .nameTF

def memoFields : List Field := (List.finRange 5).map .memoTV

/-- The heading and the five cells of row `k`. -/
def rowFields (k : Fin 7) : List Field := .itemTF k :: (List.finRange 5).map (.contentTF · k)

/-- The title, the names, the memos, two rows, and one more row for each row
number from 3 on. -/
def backupData (vc : CompareMainVC) : List (List String) :=
  [[vc.texts .groupNameTF], nameFields.map vc.texts, memoFields.map vc.texts,
    (rowFields 0).map vc.texts, (rowFields 1).map vc.texts]
  ++ (if vc.rowNum ≥ 3 then [(rowFields 2).map vc.texts] else [])
  ++ (if vc.rowNum ≥ 4 then [(rowFields 3).map vc.texts] else [])
  ++ (if vc.rowNum ≥ 5 then [(rowFields 4).map vc.texts] else [])
  ++ (if vc.rowNum ≥ 6 then [(rowFields 5).map vc.texts] else [])
  ++ (if vc.rowNum ≥ 7 then [(rowFields 6).map vc.texts] else [])

/-- Assign the fields from entry `i` of the backup. -/
def restoreFields (editingData : List (List String)) (i : ℕ) (fields : List Field) (t : Texts) :
    Option Texts :=
  editingData[i]?.bind fun data => Memory.writeAll fields data t

/-- Assign the fields of row `k` from entry `i`, if the backup has at least
`count` entries. -/
def restoreRow (editingData : List (List String)) (count i : ℕ) (k : Fin 7) (t : Texts) :
    Option Texts :=
  if editingData.length ≥ count then restoreFields editingData i (rowFields k) t else some t

def restoreTexts (editingData : List (List String)) (t : Texts) : Option Texts := do
  let t ← restoreFields editingData 0 [.groupNameTF] t
  let t ← restoreFields editingData 1 nameFields t
  let t ← restoreFields editingData 2 memoFields t
  let t ← restoreFields editingData 3 (rowFields 0) t
  let t ← restoreFields editingData 4 (rowFields 1) t
  let t ← restoreRow editingData 6 5 2 t
  let t ← restoreRow editingData 7 6 3 t
  -- no count of 8 is asked for: the last three rows are one entry late
  let t ← restoreRow editingData 9 7 4 t
  let t ← restoreRow editingData 10 8 5 t
  restoreRow editingData 11 9 6 t

def restoreData (editingData : List (List String)) (vc : CompareMainVC) : Option CompareMainVC :=
  (restoreTexts editingData vc.texts).map fun t => { vc with texts := t }

/-- Backup, redisplay, restore. -/
def redisplay (reads : Reads) (width : ℚ) (db : Realm) (vc : CompareMainVC) :
    Option CompareMainVC := do
  let editingData := vc.backupData
  let vc ← vc.loadView.viewDidLoad reads width db
  vc.restoreData editingData

def addNewNameBtnDidTap (reads : Reads) (width : ℚ) (db : Realm) (vc : CompareMainVC) :
    Option CompareMainVC :=
  { vc with colNum := vc.colNum + 1 }.redisplay reads width db

def addNewItemBtnDidTap (reads : Reads) (width : ℚ) (db : Realm) (vc : CompareMainVC) :
    Option CompareMainVC :=
  { vc with rowNum := vc.rowNum + 1 }.redisplay reads width db

end CompareMainVC

end HikakuKun
