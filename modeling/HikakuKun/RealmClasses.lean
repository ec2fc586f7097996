/-
The two Realm tables and their queries.

`CompareItemRealm` holds one record per comparison (its title and headings),
`CompareContentsRealm` one record per column.  Neither table has a primary
key; a `Realm` is the pair of tables in insertion order, which is the order
in which unsorted results are enumerated.

Every query opens the Realm first, and opening may throw.  The queries are
given the outcome of that `try Realm()` as their first argument.
-/
import Mathlib.Data.Fintype.Pi
import Mathlib.Data.List.Sort
import HikakuKun.Table

namespace HikakuKun

/-- A comparison: its title and its headings; `item k` is the source's
`item⟨k+1⟩`. -/
structure CompareItemRealm where
  groupId : ℤ
  groupName : String
  item : Fin 7 → String
  timestamp : String
  deriving DecidableEq

/-- A column of a comparison; `content k` is the source's `content⟨k+1⟩`. -/
structure CompareContentsRealm where
  groupId : ℤ
  id : ℕ
  name : String
  content : Fin 7 → String
  memo : String
  timestamp : String
  deriving DecidableEq

/-- The stored tables. -/
structure Realm where
  items : List CompareItemRealm
  contents : List CompareContentsRealm
  deriving DecidableEq

/-- The error the queries rethrow. -/
structure NSError where
  domain : String
  code : ℤ

def realmError : NSError := ⟨"error", -1⟩

/-- A live `Results`: the app's queries all select the records of one group,
and they are read against the tables at the time of use. -/
structure Results (α : Type) where
  groupId : ℤ
  deriving DecidableEq

namespace Realm

/-- The item records of a group. -/
def itemsOf (db : Realm) (groupId : ℤ) : List CompareItemRealm :=
  Table.group CompareItemRealm.groupId groupId db.items

/-- The content records of a group. -/
def contentsOf (db : Realm) (groupId : ℤ) : List CompareContentsRealm :=
  Table.group CompareContentsRealm.groupId groupId db.contents

variable {db : Realm} {g : ℤ}

@[simp] theorem mem_itemsOf {item : CompareItemRealm} :
    item ∈ db.itemsOf g ↔ item ∈ db.items ∧ item.groupId = g := Table.mem_group

@[simp] theorem mem_contentsOf {content : CompareContentsRealm} :
    content ∈ db.contentsOf g ↔ content ∈ db.contents ∧ content.groupId = g := Table.mem_group

end Realm

namespace CompareItemRealm

/-- `0` for an empty table, else the first `groupId` in descending order. -/
def getMaxGroupId (opens : Bool) (db : Realm) : Except NSError ℤ :=
  if opens then
    match (db.items.map groupId).insertionSort (· ≥ ·) with
    | [] => .ok 0
    | max :: _ => .ok max
  else .error realmError

def getItems (opens : Bool) (groupId : ℤ) : Except NSError (Results CompareItemRealm) :=
  if opens then .ok ⟨groupId⟩ else .error realmError

theorem exists_getMaxGroupId (db : Realm) : ∃ max, getMaxGroupId true db = .ok max := by
  rw [getMaxGroupId, if_pos rfl]
  split
  · exact ⟨0, rfl⟩
  · exact ⟨_, rfl⟩

theorem le_getMaxGroupId {db : Realm} {opens : Bool} {max : ℤ}
    (h : getMaxGroupId opens db = .ok max) {item : CompareItemRealm} (hi : item ∈ db.items) :
    item.groupId ≤ max := by
  have hsorted := List.pairwise_insertionSort (· ≥ ·) (db.items.map groupId)
  have hmem : item.groupId ∈ (db.items.map groupId).insertionSort (· ≥ ·) :=
    (List.mem_insertionSort _).mpr (List.mem_map_of_mem hi)
  unfold getMaxGroupId at h
  split at h
  case isFalse => cases h
  case isTrue =>
    split at h
    case h_1 hnil => simp [hnil] at hmem
    case h_2 first rest hcons =>
      cases h
      rw [hcons] at hsorted hmem
      rcases List.mem_cons.mp hmem with heq | hrest
      · exact heq.le
      · exact List.rel_of_pairwise_cons hsorted hrest

end CompareItemRealm

namespace CompareContentsRealm

def getContentsList (opens : Bool) (groupId : ℤ) :
    Except NSError (Results CompareContentsRealm) :=
  if opens then .ok ⟨groupId⟩ else .error realmError

/-- `contents.filter("id = …").first`. -/
def firstWithId (contents : List CompareContentsRealm) (id : ℕ) :
    Option CompareContentsRealm :=
  (Table.group CompareContentsRealm.id id contents).head?

end CompareContentsRealm

end HikakuKun
