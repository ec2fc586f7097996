/-
The list screen: building the list, tapping a row, deleting a row.

The screen keeps two parallel arrays, the texts of the rows and the group
behind each row.  `viewDidLoad` builds both from the store; a confirmed
delete takes its row out of the texts.
-/
import HikakuKun.CompareMainVC
import HikakuKun.SaveData

namespace HikakuKun

/-- The arrays behind the table view. -/
structure ViewController where
  displayList : List String
  groupIdList : List ℤ
  deriving DecidableEq

/-- Which Realm operations of a confirmed delete succeed. -/
structure Delete where
  opens : Bool
  items : Bool
  contents : Bool
  write : Bool

namespace ViewController

open CompareItemRealm (getItems getMaxGroupId)
open CompareContentsRealm (getContentsList firstWithId)

/-- One pass of the inner loop of `viewDidLoad`; the counter tells the first
column apart. -/
def appendName (acc : String × ℕ) (content : CompareContentsRealm) : String × ℕ :=
  if acc.2 = 0 then (acc.1 ++ "  :  " ++ content.name, acc.2 + 1)
  else (acc.1 ++ ", " ++ content.name, acc.2 + 1)

/-- The text of a group's row. -/
def displayText (db : Realm) (item : CompareItemRealm) : String :=
  ((db.contentsOf item.groupId).foldl appendName (item.groupName, 0)).1

/-- One pass of the outer loop of `viewDidLoad`. -/
def appendRow (db : Realm) (list : ViewController) (item : CompareItemRealm) : ViewController where
  displayList := list.displayList ++ [displayText db item]
  groupIdList := list.groupIdList ++ [item.groupId]

/-- `viewDidLoad`: both lists are emptied, then filled if the Realm opens. -/
def viewDidLoad (opens : Bool) (db : Realm) (list : ViewController) : ViewController :=
  let list := { list with displayList := [] }
  let list := { list with groupIdList := [] }
  if opens then db.items.foldl (appendRow db) list else list

/-! ### Opening a row -/

/-- `contents_id⟨id⟩ != nil` and its cell in row `k` is not empty. -/
def cellShowsRow (contents : List CompareContentsRealm) (k : Fin 7) (id : ℕ) : Bool :=
  (firstWithId contents id).any fun content => content.content k ≠ ""

/-- One of the six blocks of `行数判定`.  An absent item record counts as a
non-empty heading; the columns asked are those with ids 1 to 4. -/
def rowNumBlock (items : List CompareItemRealm) (contents : List CompareContentsRealm)
    (idNum : ℕ) (k : Fin 7) : ℕ :=
  if items.head?.map (·.item k) ≠ some "" then k + 1
  else
    [1, 2, 3, 4].foldl (fun idNum id => if cellShowsRow contents k id then k + 1 else idNum) idNum

/-- `行数判定`: the blocks for rows 2 to 7, later ones overriding earlier ones. -/
def idNum (items : List CompareItemRealm) (contents : List CompareContentsRealm) : ℕ :=
  [1, 2, 3, 4, 5, 6].foldl (rowNumBlock items contents) 1

/-- The editor `didSelectRowAt` makes for a row, before it is presented.  When
a read throws, the row number stays 1. -/
def didSelectRowAt (row : ℕ) (reads : Reads) (db : Realm) (list : ViewController) :
    Option CompareMainVC := do
  let groupId ← list.groupIdList[row]?
  let rowNum :=
    match getItems reads.items groupId, getContentsList reads.contents groupId with
    | .ok items, .ok contents => idNum (db.itemsOf items.groupId) (db.contentsOf contents.groupId)
    | _, _ => 1
  return { groupId := groupId, rowNum := rowNum }

/-- The editor for a new comparison, or `none` when `getMaxGroupId` throws and
nothing is presented. -/
def addNewHikaku (opens : Bool) (db : Realm) : Option CompareMainVC :=
  match getMaxGroupId opens db with
  | .ok max => some { groupId := max + 1, rowNum := 1 }
  | .error _ => none

/-! ### Deleting a row -/

/-- `realm.delete` of the two results. -/
def deleteGroup (groupId : ℤ) (db : Realm) : Realm where
  items := Table.erase CompareItemRealm.groupId groupId db.items
  contents := Table.erase CompareContentsRealm.groupId groupId db.contents

/-- The Yes action of a delete: the row leaves the screen, then the records of
its group leave the store.  Every error ends in the same alert. -/
def yesAction (row : ℕ) (delete : Delete) (db : Realm) (list : ViewController) :
    Option (Realm × ViewController) := do
  if row < list.displayList.length then
    let list := { list with displayList := list.displayList.eraseIdx row }
    let deleteGroupId ← list.groupIdList[row]?
    let outcome : Except Realm Realm := do
      let db ← Throwing.attempt delete.opens id db
      let db ← Throwing.attempt delete.items id db
      let db ← Throwing.attempt delete.contents id db
      Throwing.attempt delete.write (deleteGroup deleteGroupId) db
    return (Throwing.store outcome, list)
  else none

end ViewController

end HikakuKun
