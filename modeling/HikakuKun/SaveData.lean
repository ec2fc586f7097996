/-
`saveData` and the save button.

A group whose item record exists is updated in one transaction; a new group
is inserted by one transaction for the item and one more for each column.
The outcome of a save is a store in either case: `.ok` when `saveData`
returns, `.error` when it throws, with whatever was committed before.  `none`
is a trap.
-/
import HikakuKun.CompareMainVC
import HikakuKun.Throwing

namespace HikakuKun

/-- Which Realm operations of a save succeed: its `try Realm()` and its
transactions, in order. -/
structure Writes where
  opens : Bool
  write : ℕ → Bool

namespace Realm

/-- `realm.add` of an item record. -/
def addItem (item : CompareItemRealm) (db : Realm) : Realm :=
  { db with items := db.items ++ [item] }

/-- `realm.add` of a content record. -/
def addContents (content : CompareContentsRealm) (db : Realm) : Realm :=
  { db with contents := db.contents ++ [content] }

/-- Assign through a reference to the first item record of a group. -/
def modifyItem (groupId : ℤ) (f : CompareItemRealm → CompareItemRealm) (db : Realm) : Realm :=
  { db with items := Table.modifyFirst (fun item => item.groupId = groupId) f db.items }

/-- Assign through a reference to the first content record of a group with
this id. -/
def modifyContents (groupId : ℤ) (id : ℕ) (f : CompareContentsRealm → CompareContentsRealm)
    (db : Realm) : Realm :=
  { db with contents :=
      Table.modifyFirst (fun content => content.groupId = groupId ∧ content.id = id) f db.contents }

/-- `realm.write`: the block runs, and then the commit succeeds, or throws.  That a
write that throws leaves the store as it was is an assumption about Realm.  A trap
in the block is a trap. -/
def write (succeeds : Bool) (block : Realm → Option Realm) (db : Realm) :
    Option (Except Realm Realm) :=
  (block db).map fun db' => Throwing.attempt succeeds (fun _ => db') db

end Realm

namespace CompareMainVC

open CompareContentsRealm (firstWithId)

variable (vc : CompareMainVC) (now : String)

/-! ### Update -/

def updateItems (item : CompareItemRealm) : CompareItemRealm :=
  { item with
    groupName := vc.texts .groupNameTF
    item := fun k => vc.texts (.itemTF k)
    timestamp := now }

def updateContent (c : Fin 5) (content : CompareContentsRealm) : CompareContentsRealm :=
  { content with
    name := vc.texts (.nameTF c)
    content := fun k => vc.texts (.contentTF c k)
    memo := vc.texts (.memoTV c)
    timestamp := now }

/-- The record `saveData` builds for column `col`.  It has fields for columns
0 to 4 only; any other column keeps the defaults. -/
def colContents (col : ℕ) : CompareContentsRealm :=
  if h : col < 5 then
    { groupId := vc.groupId
      id := col
      name := vc.texts (.nameTF ⟨col, h⟩)
      content := fun k => vc.texts (.contentTF ⟨col, h⟩ k)
      memo := vc.texts (.memoTV ⟨col, h⟩)
      timestamp := now }
  else
    { groupId := vc.groupId, id := col, name := "", content := fun _ => "", memo := "",
      timestamp := now }

/-- `updateContent_1!`, `updateContent_2!`: a column that must be there. -/
def updateFirst (groupId : ℤ) (stored : List CompareContentsRealm) (c : Fin 5) (db : Realm) :
    Option Realm :=
  (firstWithId stored c).map fun _ => db.modifyContents groupId c (vc.updateContent now c)

/-- Columns 3 to 5, when the editor shows them: update, or insert. -/
def updateOrInsert (groupId : ℤ) (stored : List CompareContentsRealm) (c : Fin 5) (db : Realm) :
    Realm :=
  if vc.colNum ≥ c.val + 1 then
    if (firstWithId stored c).isSome then
      db.modifyContents groupId c (vc.updateContent now c)
    else db.addContents (vc.colContents now c)
  else db

/-- The transaction of the update branch.  The records to update were looked
up before it began, so an inserted column does not change which columns are
found. -/
def updateBlock (items : Results CompareItemRealm) (contents : Results CompareContentsRealm)
    (db : Realm) : Option Realm := do
  let stored := db.contentsOf contents.groupId
  let db := db.modifyItem items.groupId (vc.updateItems now)
  let db ← vc.updateFirst now contents.groupId stored 0 db
  let db ← vc.updateFirst now contents.groupId stored 1 db
  let db := vc.updateOrInsert now contents.groupId stored 2 db
  let db := vc.updateOrInsert now contents.groupId stored 3 db
  return vc.updateOrInsert now contents.groupId stored 4 db

/-! ### Insert -/

def colItem : CompareItemRealm where
  groupId := vc.groupId
  groupName := vc.texts .groupNameTF
  item := fun k => vc.texts (.itemTF k)
  timestamp := now

/-- The insert branch: a transaction for the item, then one for each column. -/
def insertData (writes : Writes) (db : Realm) : Except Realm Realm := do
  let db ← Throwing.attempt writes.opens id db
  let db ← Throwing.attempt (writes.write 0) (Realm.addItem (vc.colItem now)) db
  (List.range vc.colNum).foldlM (fun db col =>
    Throwing.attempt (writes.write (col + 1)) (Realm.addContents (vc.colContents now col)) db) db

/-! ### The save button -/

/-- `items.filter("groupId = %@", groupId).first != nil` -/
def groupIdInUse (items : Results CompareItemRealm) (db : Realm) : Bool :=
  ((db.itemsOf items.groupId).filter fun item => item.groupId = vc.groupId).head?.isSome

def saveData (writes : Writes) (db : Realm) : Option (Except Realm Realm) := do
  let items ← vc.items
  if vc.groupIdInUse items db then
    let contents ← vc.contents
    -- nothing was written when the Realm does not open
    if writes.opens then db.write (writes.write 0) (vc.updateBlock now items contents)
    else return .error db
  else return vc.insertData now writes db

/-- Save, then redisplay whether or not the save threw. -/
def saveBtnDidTap (writes : Writes) (reads : Reads) (width : ℚ) (db : Realm) :
    Option (Realm × CompareMainVC) := do
  let outcome ← vc.saveData now writes db
  let db := Throwing.store outcome
  let vc ← vc.viewDidLoad reads width db
  return (db, vc)

end CompareMainVC

end HikakuKun
