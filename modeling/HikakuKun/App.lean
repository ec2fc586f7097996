/-
The app as an event system.

One list screen, at most one editor presented over it, the store, and the
global `SAFE_AREA_WIDTH`.  An event is something the user or the system does,
together with the outcome of each Realm operation its handler performs, so
that every operation may succeed or throw independently of the others.

The editor is presented as a sheet and can be dismissed without its back
button; the process can be ended and launched again at any time.  Alerts are left
out, and an editor that is presented appears also if the handler has just presented
an alert: what UIKit makes of the second is assumed here.
-/
import HikakuKun.EventSystem
import HikakuKun.ViewController

namespace HikakuKun

structure App where
  db : Realm
  width : ℚ
  list : ViewController
  editor : Option CompareMainVC

inductive Event
  /-- The + of the list screen; the editor reads the store when it appears. -/
  | addNewHikakuBtnDidTap (opens : Bool) (reads : Reads)
  /-- A tap on a row, with the reads of the list screen and those of the
  editor. -/
  | didSelectRowAt (row : ℕ) (select : Reads) (reads : Reads)
  /-- A delete of a row, confirmed with Yes. -/
  | confirmDelete (row : ℕ) (delete : Delete)
  | edit (field : Field) (text : String)
  | addNewNameBtnDidTap (reads : Reads)
  | addNewItemBtnDidTap (reads : Reads)
  /-- The save button at time `now`; the editor then reads the store again. -/
  | saveBtnDidTap (now : String) (writes : Writes) (reads : Reads)
  /-- The back button, confirmed with Yes: `callBack` rebuilds the list. -/
  | backBtnDidTap (opens : Bool)
  /-- The sheet is swiped away: `callBack` is not run. -/
  | swipeDown
  /-- `viewDidLayoutSubviews` stores a new width. -/
  | layoutSubviews (width : ℚ)
  /-- The process is started again. -/
  | launch (opens : Bool)

namespace App

/-- The first launch, on empty tables. -/
def init : App where
  db := ⟨[], []⟩
  width := 0
  list := ⟨[], []⟩
  editor := none

/-- Which events can happen: those of the screen in front, on rows, fields and
buttons that are there. -/
def enabled (s : App) : Event → Prop
  | .addNewHikakuBtnDidTap _ _ => s.editor.isNone
  | .didSelectRowAt row _ _ => s.editor.isNone ∧ row < s.list.displayList.length
  | .confirmDelete row _ => s.editor.isNone ∧ row < s.list.displayList.length
  | .edit field _ => ∃ vc ∈ s.editor, vc.visible field
  | .addNewNameBtnDidTap _ => ∃ vc ∈ s.editor, vc.addNewNameBtn
  | .addNewItemBtnDidTap _ => ∃ vc ∈ s.editor, vc.addNewItemBtn
  | .saveBtnDidTap _ _ _ => s.editor.isSome
  | .backBtnDidTap _ => s.editor.isSome
  | .swipeDown => s.editor.isSome
  | .layoutSubviews _ => True
  | .launch _ => True

/-- Present an editor: its view is loaded for the first time.  After a read that
throws, `didSelectRowAt` presents it over an alert; it is assumed to appear. -/
def present (s : App) (vc : CompareMainVC) (reads : Reads) : Option App :=
  (vc.loadView.viewDidLoad reads s.width s.db).map fun vc => { s with editor := some vc }

/-- Let the presented editor handle an event that does not write. -/
def inEditor (s : App) (f : CompareMainVC → Option CompareMainVC) : Option App :=
  s.editor.bind fun vc => (f vc).map fun vc => { s with editor := some vc }

/-- The handlers.  `none` is a trap. -/
def step (s : App) : Event → Option App
  | .addNewHikakuBtnDidTap opens reads =>
    match ViewController.addNewHikaku opens s.db with
    | some vc => s.present vc reads
    | none => some s
  | .didSelectRowAt row select reads =>
    -- also after a read that throws: the catch only shows its alert
    (s.list.didSelectRowAt row select s.db).bind fun vc => s.present vc reads
  | .confirmDelete row delete =>
    (s.list.yesAction row delete s.db).map fun (db, list) => { s with db := db, list := list }
  | .edit field text => s.inEditor fun vc => some (vc.edit field text)
  | .addNewNameBtnDidTap reads =>
    s.inEditor fun vc => vc.addNewNameBtnDidTap reads s.width s.db
  | .addNewItemBtnDidTap reads =>
    s.inEditor fun vc => vc.addNewItemBtnDidTap reads s.width s.db
  | .saveBtnDidTap now writes reads =>
    s.editor.bind fun vc =>
      (vc.saveBtnDidTap now writes reads s.width s.db).map fun (db, vc) =>
        { s with db := db, editor := some vc }
  | .backBtnDidTap opens =>
    some { s with editor := none, list := s.list.viewDidLoad opens s.db }
  | .swipeDown => some { s with editor := none }
  | .layoutSubviews width => some { s with width := width }
  | .launch opens =>
    some { s with
      width := 0, editor := none, list := ViewController.viewDidLoad opens s.db ⟨[], []⟩ }

end App

/-- The app. -/
def app : EventSystem App Event where
  enabled := App.enabled
  step := App.step

instance (s : App) : (e : Event) → Decidable (app.enabled s e)
  | .addNewHikakuBtnDidTap _ _ => inferInstanceAs (Decidable (s.editor.isNone = true))
  | .didSelectRowAt row _ _ | .confirmDelete row _ =>
    inferInstanceAs (Decidable (s.editor.isNone = true ∧ row < s.list.displayList.length))
  | .edit field _ => inferInstanceAs (Decidable (∃ vc ∈ s.editor, vc.visible field))
  | .addNewNameBtnDidTap _ => inferInstanceAs (Decidable (∃ vc ∈ s.editor, vc.addNewNameBtn = true))
  | .addNewItemBtnDidTap _ => inferInstanceAs (Decidable (∃ vc ∈ s.editor, vc.addNewItemBtn = true))
  | .saveBtnDidTap _ _ _ | .backBtnDidTap _ | .swipeDown =>
    inferInstanceAs (Decidable (s.editor.isSome = true))
  | .layoutSubviews _ | .launch _ => .isTrue trivial

/-- The states the app can reach from empty tables, Realm operations failing
at will. -/
def Reachable (s : App) : Prop := ∃ es, app.Run App.init es s

namespace Reads

/-- Both reads succeed. -/
def succeed (reads : Reads) : Prop := reads.items = true ∧ reads.contents = true

def ok : Reads := ⟨true, true⟩

end Reads

namespace Writes

def ok : Writes := ⟨true, fun _ => true⟩

/-- Only transaction `n` throws. -/
def failingAt (n : ℕ) : Writes := ⟨true, fun i => decide (i ≠ n)⟩

end Writes

def Delete.ok : Delete := ⟨true, true, true, true⟩

namespace Event

/-- Every Realm operation of the event succeeds. -/
def succeeds : Event → Prop
  | addNewHikakuBtnDidTap opens reads => opens = true ∧ reads.succeed
  | didSelectRowAt _ select reads => select.succeed ∧ reads.succeed
  | confirmDelete _ delete =>
    delete.opens = true ∧ delete.items = true ∧ delete.contents = true ∧ delete.write = true
  | addNewNameBtnDidTap reads => reads.succeed
  | addNewItemBtnDidTap reads => reads.succeed
  | saveBtnDidTap _ writes reads =>
    writes.opens = true ∧ (∀ i, writes.write i = true) ∧ reads.succeed
  | backBtnDidTap opens => opens = true
  | launch opens => opens = true
  | edit _ _ | swipeDown | layoutSubviews _ => True

end Event

end HikakuKun
