/-
What the editor's `viewDidLoad` shows.

`viewDidLoad` loads its fields in six parts with different guards.
`reloaded` gives, field by field, the text it leaves: the stored value, the
old text where the source does not assign, or the empty string.

* `viewDidLoad_eq` — on numbered columns, once both results are loaded, the
  whole of `viewDidLoad` in one equation; in particular it does not trap;
* `viewDidLoad_eq_none` — a first load in which a read throws traps.
-/
import Mathlib.Tactic.FinCases
import HikakuKun.CompareMainVC

namespace HikakuKun

open CompareItemRealm (getItems)
open CompareContentsRealm (getContentsList firstWithId)

/-- The field is outside the columns, or in one of the first `n`. -/
def Field.Within (n : ℕ) : Field → Prop
  | .nameTF c => c.val < n
  | .contentTF c _ => c.val < n
  | .memoTV c => c.val < n
  | _ => True

namespace Realm

/-- The stored value that a field of an editor on group `g` stands for. -/
def stored (db : Realm) (g : ℤ) : Field → Option String
  | .groupNameTF => (db.itemsOf g).head?.map (·.groupName)
  | .itemTF k => (db.itemsOf g).head?.map (·.item k)
  | .nameTF c => (firstWithId (db.contentsOf g) c).map (·.name)
  | .contentTF c k => (firstWithId (db.contentsOf g) c).map (·.content k)
  | .memoTV c => (firstWithId (db.contentsOf g) c).map (·.memo)

/-- The columns of a group are numbered in table order. -/
def ColumnsNumbered (db : Realm) (g : ℤ) : Prop :=
  Table.Numbered CompareContentsRealm.id (db.contentsOf g)

theorem ColumnsNumbered.firstWithId {db : Realm} {g : ℤ} (h : db.ColumnsNumbered g) (c : ℕ) :
    firstWithId (db.contentsOf g) c = (db.contentsOf g)[c]? :=
  h.head?_group c

/-- Only the fields of stored columns have a stored value. -/
theorem within_of_stored {db : Realm} {g : ℤ} {f : Field} {v : String}
    (h : db.ColumnsNumbered g) (hf : db.stored g f = some v) :
    f.Within (db.contentsOf g).length := by
  have hcolumn : ∀ {c : ℕ} {content : CompareContentsRealm},
      CompareContentsRealm.firstWithId (db.contentsOf g) c = some content →
        c < (db.contentsOf g).length := by
    intro c content hc
    rw [h.firstWithId] at hc
    exact (List.getElem?_eq_some_iff.mp hc).1
  cases f with
  | groupNameTF => trivial
  | itemTF k => trivial
  | nameTF c =>
    obtain ⟨content, hc, -⟩ := Option.map_eq_some_iff.mp hf
    exact hcolumn hc
  | contentTF c k =>
    obtain ⟨content, hc, -⟩ := Option.map_eq_some_iff.mp hf
    exact hcolumn hc
  | memoTV c =>
    obtain ⟨content, hc, -⟩ := Option.map_eq_some_iff.mp hf
    exact hcolumn hc

end Realm

namespace CompareMainVC

theorem within_of_visible {vc : CompareMainVC} {f : Field} (h : vc.visible f) :
    f.Within vc.colNum := by
  cases f with
  | groupNameTF => trivial
  | itemTF k => trivial
  | nameTF c => exact h
  | contentTF c k => exact h.1
  | memoTV c => exact h

/-- The text of a field after `viewDidLoad`, from its text before. -/
def reloaded (db : Realm) (g : ℤ) (colNum rowNum : ℕ) (t : Texts) (f : Field) : String :=
  match f with
  | .groupNameTF => (db.stored g f).getD (t f)
  | .nameTF c =>
    if c.val < 2 then ((db.stored g f).filter (· ≠ "")).getD (t f)
    else if c.val < colNum then (db.stored g f).getD (t f) else t f
  | .memoTV c => if c.val < colNum then (db.stored g f).getD "" else t f
  | .itemTF k =>
    if k = 0 then ((db.stored g f).filter (· ≠ "")).getD (t f)
    else if k.val < rowNum then (db.stored g f).getD (t f) else t f
  | .contentTF c k =>
    if k = 0 then
      if c.val < 2 then
        if ((db.stored g (.itemTF 0)).filter (· ≠ "")).isSome then (db.stored g f).getD ""
        else t f
      else if c.val < colNum then (db.stored g f).getD "" else t f
    else if k.val < rowNum then (db.stored g f).getD (t f) else t f

theorem getD_filter_some (v b : String) :
    ((some v).filter (· ≠ "")).getD b = if v = "" then b else v := by
  by_cases hv : v = "" <;> simp [Option.filter, hv]

theorem isSome_filter_ne_iff {o : Option String} :
    (o.filter (· ≠ "")).isSome = true ↔ ∃ v ∈ o, v ≠ "" := by
  rw [Option.isSome_iff_exists]
  refine exists_congr fun v => ?_
  rw [Option.filter_eq_some_iff]
  exact and_congr Iff.rfl ⟨of_decide_eq_true, decide_eq_true⟩

/-- A field that already shows its stored value keeps it. -/
theorem reloaded_eq_self {db : Realm} {g : ℤ} {colNum rowNum : ℕ} {t : Texts} {f : Field}
    (h : db.stored g f = some (t f)) : reloaded db g colNum rowNum t f = t f := by
  have hblank : ((some (t f)).filter (· ≠ "")).getD (t f) = t f := by
    rw [getD_filter_some, ite_self]
  cases f with
  | groupNameTF => rw [reloaded, h, Option.getD_some]
  | nameTF c =>
    rw [reloaded, h, hblank, Option.getD_some]
    split_ifs <;> rfl
  | memoTV c =>
    rw [reloaded, h, Option.getD_some]
    split_ifs <;> rfl
  | itemTF k =>
    rw [reloaded, h, hblank, Option.getD_some]
    split_ifs <;> rfl
  | contentTF c k =>
    rw [reloaded, h, Option.getD_some, Option.getD_some]
    split_ifs <;> rfl

/-! ### The parts -/

section Parts

variable {items : List CompareItemRealm} {contents : List CompareContentsRealm}
  {colNum rowNum : ℕ} {t : Texts}

theorem setText_apply (t : Texts) (f f' : Field) (v : Option String) :
    setText t f v f' = if f' = f then v.getD "" else t f' := Function.update_apply ..

theorem loadRow1_itemTF (k : Fin 7) :
    loadRow1 items contents colNum t (.itemTF k) =
      if k = 0 then ((items.head?.map (·.item 0)).filter (· ≠ "")).getD (t (.itemTF k))
      else t (.itemTF k) := by
  unfold loadRow1
  cases items.head? with
  | none => simp [ite_apply, setText_apply]
  | some item =>
    by_cases hitem : item.item 0 = "" <;> by_cases hk : k = 0 <;>
      simp [ite_apply, setText_apply, hitem, hk, Option.filter]

theorem loadRow1_contentTF (h0 : contents.head? = firstWithId contents 0) (h5 : colNum ≤ 5)
    (c : Fin 5) (k : Fin 7) :
    loadRow1 items contents colNum t (.contentTF c k) =
      if k = 0 then
        if c.val < 2 then
          if ((items.head?.map (·.item 0)).filter (· ≠ "")).isSome then
            ((firstWithId contents c).map (·.content k)).getD ""
          else t (.contentTF c k)
        else if c.val < colNum then ((firstWithId contents c).map (·.content k)).getD ""
        else t (.contentTF c k)
      else t (.contentTF c k) := by
  unfold loadRow1
  -- the source asks `colNum == 5` for the last column
  have hfive : (5 ≤ colNum) ↔ colNum = 5 := by omega
  by_cases hk : k = 0
  · subst hk
    rw [if_pos rfl, h0]
    cases items.head? with
    | none =>
      fin_cases c <;> simp [ite_apply, setText_apply, Nat.lt_iff_add_one_le, hfive]
    | some item =>
      by_cases hitem : item.item 0 = "" <;> fin_cases c <;>
        simp [ite_apply, setText_apply, hitem, Option.filter, Nat.lt_iff_add_one_le, hfive]
  · rw [if_neg hk]
    cases items.head? with
    | none => simp [ite_apply, setText_apply, hk]
    | some item =>
      by_cases hitem : item.item 0 = "" <;> simp [ite_apply, setText_apply, hitem, hk]

theorem loadRow1_of_other {f : Field} (hi : ∀ k, f ≠ .itemTF k) (hc : ∀ c k, f ≠ .contentTF c k) :
    loadRow1 items contents colNum t f = t f := by
  unfold loadRow1
  cases items.head? with
  | none => simp [ite_apply, setText_apply, hc]
  | some item => simp [ite_apply, setText_apply, hi, hc]

theorem loadItem_apply (k : Fin 7) (f : Field) :
    loadItem items k t f =
      if f = .itemTF k then (items.head?.map (·.item k)).getD (t f) else t f := by
  unfold loadItem
  cases items.head? with
  | none => simp
  | some item => simp [setText_apply]

theorem loadContent_apply (k : Fin 7) (c : Fin 5) (f : Field) :
    loadContent contents k t c f =
      if f = .contentTF c k then ((firstWithId contents c).map (·.content k)).getD (t f)
      else t f := by
  unfold loadContent
  cases firstWithId contents c with
  | none => simp
  | some content => simp [setText_apply]

theorem loadRow_itemTF (k₀ k : Fin 7) :
    loadRow items contents k₀ t (.itemTF k) =
      if k = k₀ then (items.head?.map (·.item k)).getD (t (.itemTF k)) else t (.itemTF k) := by
  rw [loadRow, Memory.foldl_apply_frame, loadItem_apply]
  · by_cases hk : k = k₀ <;> simp [hk]
  · intro m c _
    rw [loadContent_apply, if_neg Field.noConfusion]

theorem loadRow_contentTF (k₀ k : Fin 7) (c : Fin 5) :
    loadRow items contents k₀ t (.contentTF c k) =
      if k = k₀ then
        ((firstWithId contents c).map (·.content k)).getD (t (.contentTF c k))
      else t (.contentTF c k) := by
  -- only the heading is assigned before the loop over the columns
  have hhead : loadItem items k₀ t (.contentTF c k) = t (.contentTF c k) := by
    rw [loadItem_apply, if_neg Field.noConfusion]
  rw [loadRow]
  by_cases hk : k = k₀
  · subst hk
    rw [if_pos rfl, Memory.foldl_apply_hit (j := c) (List.nodup_finRange 5) (List.mem_finRange c)
      (g := fun old => ((firstWithId contents c).map (·.content k)).getD old), hhead]
    · intro m
      rw [loadContent_apply, if_pos rfl]
    · intro m c' _ hc
      rw [loadContent_apply, if_neg fun h => hc (Field.contentTF.inj h).1.symm]
  · rw [if_neg hk, Memory.foldl_apply_frame, hhead]
    intro m c' _
    rw [loadContent_apply, if_neg fun h => hk (Field.contentTF.inj h).2]

theorem loadRow_of_other {f : Field} (hi : ∀ k, f ≠ .itemTF k) (hc : ∀ c k, f ≠ .contentTF c k)
    (k₀ : Fin 7) : loadRow items contents k₀ t f = t f := by
  rw [loadRow, Memory.foldl_apply_frame, loadItem_apply, if_neg (hi k₀)]
  intro m c _
  rw [loadContent_apply, if_neg (hc c k₀)]

/-- Only the pass for row `k` touches a field of row `k`; there is none for
row 0. -/
theorem loadRows_apply {f : Field} {k : Fin 7} {g : String → String}
    (hhit : ∀ t, loadRow items contents k t f = g (t f))
    (hmiss : ∀ t k', k' ≠ k → loadRow items contents k' t f = t f) :
    loadRows items contents rowNum t f =
      if k ≠ 0 ∧ k.val < rowNum then g (t f) else t f := by
  have hk0 : k ≠ 0 ↔ 1 ≤ k.val := by
    rw [← Fin.val_ne_zero_iff]
    omega
  have hmiss' : ∀ (t : Texts) (i : ℕ), i ≠ k.val →
      (if h : i < 7 then loadRow items contents ⟨i, h⟩ t else t) f = t f := by
    intro t i hi
    split
    · exact hmiss t _ fun h => hi (congrArg Fin.val h)
    · rfl
  unfold loadRows
  split
  case isFalse hrow => rw [if_neg (by omega)]
  case isTrue hrow =>
    by_cases hk : k ≠ 0 ∧ k.val < rowNum
    · rw [if_pos hk, Memory.foldl_apply_hit (j := k.val) List.nodup_range' (g := g)]
      · rw [List.mem_range'_1]
        omega
      · intro m
        rw [dif_pos k.isLt]
        exact hhit m
      · exact fun m i _ hi => hmiss' m i hi
    · rw [if_neg hk, Memory.foldl_apply_frame]
      intro m i hi
      rw [List.mem_range'_1] at hi
      exact hmiss' m i (by omega)

theorem loadRows_itemTF (k : Fin 7) :
    loadRows items contents rowNum t (.itemTF k) =
      if k ≠ 0 ∧ k.val < rowNum then (items.head?.map (·.item k)).getD (t (.itemTF k))
      else t (.itemTF k) :=
  loadRows_apply (k := k) (fun t => by rw [loadRow_itemTF, if_pos rfl]) fun t k' hk => by
    rw [loadRow_itemTF, if_neg hk.symm]

theorem loadRows_contentTF (c : Fin 5) (k : Fin 7) :
    loadRows items contents rowNum t (.contentTF c k) =
      if k ≠ 0 ∧ k.val < rowNum then
        ((firstWithId contents c).map (·.content k)).getD (t (.contentTF c k))
      else t (.contentTF c k) :=
  loadRows_apply (k := k) (fun t => by rw [loadRow_contentTF, if_pos rfl]) fun t k' hk => by
    rw [loadRow_contentTF, if_neg hk.symm]

theorem loadRows_of_other {f : Field} (hi : ∀ k, f ≠ .itemTF k) (hc : ∀ c k, f ≠ .contentTF c k) :
    loadRows items contents rowNum t f = t f := by
  rw [loadRows_apply (k := 0) (g := fun s => s) (fun t => loadRow_of_other hi hc 0)
    fun t k _ => loadRow_of_other hi hc k, if_neg (by simp)]

/-- A loop over the cases of a column switch touches a field of column `c`
only at `n = c + 1`. -/
theorem foldl_switchColumn {f : Field} {c : Fin 5} {g : String → String} {l : List ℕ}
    {body : Texts → Fin 5 → Texts} (hl : l.Nodup) (hhit : ∀ t, body t c f = g (t f))
    (hmiss : ∀ t c', c' ≠ c → body t c' f = t f) :
    l.foldl (fun t n => switchColumn n (body t) t) t f =
      if c.val + 1 ∈ l then g (t f) else t f := by
  have hmiss' : ∀ (t : Texts) (n : ℕ), n ≠ c.val + 1 → switchColumn n (body t) t f = t f := by
    intro t n hn
    unfold switchColumn
    split
    case isTrue h =>
      refine hmiss t _ fun hc => hn ?_
      rw [← hc]
      simp only
      omega
    case isFalse => rfl
  by_cases hc : c.val + 1 ∈ l
  · rw [if_pos hc, Memory.foldl_apply_hit (j := c.val + 1) hl hc (g := g)]
    · intro m
      rw [switchColumn, dif_pos (by omega)]
      exact hhit m
    · exact fun m n _ hn => hmiss' m n hn
  · rw [if_neg hc, Memory.foldl_apply_frame]
    exact fun m n hn => hmiss' m n fun h => hc (h ▸ hn)

/-- A loop over the cases of a column switch none of which touches `f`. -/
theorem foldl_switchColumn_frame {f : Field} {l : List ℕ} {body : Texts → Fin 5 → Texts}
    (hmiss : ∀ t c, body t c f = t f) :
    l.foldl (fun t n => switchColumn n (body t) t) t f = t f := by
  rw [Memory.foldl_apply_frame]
  intro m n _
  unfold switchColumn
  split
  · exact hmiss m _
  · rfl

theorem loadMemos_eq (h : 1 ≤ colNum) :
    loadMemos contents colNum t = some fun f =>
      match f with
      | .memoTV c =>
        if c.val < colNum then ((firstWithId contents c).map (·.memo)).getD "" else t (.memoTV c)
      | f => t f := by
  rw [loadMemos, if_pos h]
  refine congrArg some (funext fun f => ?_)
  cases f with
  | memoTV c =>
    rw [foldl_switchColumn (c := c) List.nodup_range'
      (g := fun _ => ((firstWithId contents c).map (·.memo)).getD "")]
    · simp only [List.mem_range'_1]
      refine if_congr ?_ rfl rfl
      omega
    · exact fun t => by simp [setText_apply]
    · exact fun t c' hc => by simp [setText_apply, hc.symm]
  | _ => exact foldl_switchColumn_frame fun t c => by simp [setText_apply]

theorem loadGroupName_apply (f : Field) :
    loadGroupName items t f =
      match f with
      | .groupNameTF => (items.head?.map (·.groupName)).getD (t .groupNameTF)
      | f => t f := by
  cases items with
  | nil => cases f <;> rfl
  | cons item items => cases f <;> simp [loadGroupName, setText_apply]

theorem loadName_some (c : Fin 5) (content : CompareContentsRealm) :
    loadName c (some content) t = some fun f =>
      if f = .nameTF c then ((some content.name).filter (· ≠ "")).getD (t f) else t f := by
  rw [loadName, Option.map_some]
  refine congrArg some (funext fun f => ?_)
  by_cases hname : content.name = "" <;> by_cases hf : f = .nameTF c <;>
    simp [setText_apply, Option.filter, hname, hf]

theorem loadNames3_apply (f : Field) :
    loadNames3 contents colNum t f =
      match f with
      | .nameTF c =>
        if 2 ≤ c.val ∧ c.val < colNum then
          ((firstWithId contents c).map (·.name)).getD (t (.nameTF c))
        else t (.nameTF c)
      | f => t f := by
  unfold loadNames3
  split
  case isFalse h =>
    cases f with
    | nameTF c =>
      simp only
      rw [if_neg (by omega)]
    | _ => rfl
  case isTrue h =>
    cases f with
    | nameTF c =>
      simp only
      rw [foldl_switchColumn (c := c) List.nodup_range'
        (g := fun old => ((firstWithId contents c).map (·.name)).getD old)]
      · simp only [List.mem_range'_1]
        refine if_congr ?_ rfl rfl
        omega
      · intro t
        cases firstWithId contents c <;> simp [setText_apply]
      · intro t c' hc
        cases firstWithId contents c' <;> simp [setText_apply, hc.symm]
    | _ =>
      refine foldl_switchColumn_frame fun t c => ?_
      cases firstWithId contents c <;> simp [setText_apply]

theorem head?_eq_firstWithId (hnum : Table.Numbered CompareContentsRealm.id contents) :
    contents.head? = firstWithId contents 0 := by
  rw [firstWithId, hnum.head?_group, List.head?_eq_getElem?]

/-- On numbered columns the forced unwraps of the names find their record. -/
theorem loadNames_eq (hnum : Table.Numbered CompareContentsRealm.id contents) :
    loadNames contents colNum t = some fun f =>
      match f with
      | .nameTF c =>
        if c.val < 2 then
          (((firstWithId contents c).map (·.name)).filter (· ≠ "")).getD (t (.nameTF c))
        else if c.val < colNum then
          ((firstWithId contents c).map (·.name)).getD (t (.nameTF c))
        else t (.nameTF c)
      | f => t f := by
  -- names 1 and 2 are assigned through the same lookup as the later ones
  have hname : ∀ (c : Fin 5) (n : ℕ) (t : Texts), n = c.val + 1 →
      (if contents.length ≥ n then loadName c (firstWithId contents c) t else some t) =
        some fun f => if f = .nameTF c then
          (((firstWithId contents c).map (·.name)).filter (· ≠ "")).getD (t f) else t f := by
    rintro c n t rfl
    rw [firstWithId, hnum.head?_group]
    split
    case isTrue h =>
      rw [List.getElem?_eq_getElem h, loadName_some]
      rfl
    case isFalse h =>
      rw [List.getElem?_eq_none (by omega)]
      simp
  rw [loadNames, head?_eq_firstWithId hnum]
  have h1 := hname 0 1 t rfl
  simp only [gt_iff_lt, Nat.lt_iff_add_one_le, Nat.zero_add]
  rw [show firstWithId contents 0 = firstWithId contents ((0 : Fin 5) : ℕ) from rfl,
    show firstWithId contents 1 = firstWithId contents ((1 : Fin 5) : ℕ) from rfl]
  rw [h1, Option.bind_some, hname 1 2 _ rfl, Option.map_some]
  refine congrArg some (funext fun f => ?_)
  rw [loadNames3_apply]
  cases f with
  | nameTF c =>
    fin_cases c <;> simp [Nat.lt_iff_add_one_le]
  | _ => simp

end Parts

/-! ### The whole -/

/-- Both results are loaded, and they are those of the editor's own group. -/
structure Loaded (vc : CompareMainVC) : Prop where
  items : vc.items = some ⟨vc.groupId⟩
  contents : vc.contents = some ⟨vc.groupId⟩

/-- The column number after `viewDidLoad`. -/
def loadedColNum (vc : CompareMainVC) (reads : Reads) (db : Realm) : ℕ :=
  if (reads.items ∧ reads.contents) ∧ 1 < (db.contentsOf vc.groupId).length then
    max vc.colNum (db.contentsOf vc.groupId).length
  else vc.colNum

/-- The editor after a `viewDidLoad` that loaded its results. -/
def redisplayed (vc : CompareMainVC) (reads : Reads) (width : ℚ) (db : Realm) : CompareMainVC :=
  { vc with
    items := some ⟨vc.groupId⟩
    contents := some ⟨vc.groupId⟩
    colNum := vc.loadedColNum reads db
    texts := reloaded db vc.groupId (vc.loadedColNum reads db) vc.rowNum vc.texts
    addNewItemBtn := decide (vc.rowNum ≤ 6)
    addNewNameBtn := vc.addNewNameBtn || addsNewNameBtn width (vc.loadedColNum reads db) }

variable {vc : CompareMainVC} {reads : Reads} {width : ℚ} {db : Realm}

theorem loadResults_eq (hnum : db.ColumnsNumbered vc.groupId) :
    vc.loadResults reads db = some { vc with
      items := if reads.items then some ⟨vc.groupId⟩ else vc.items
      contents := if reads.items ∧ reads.contents then some ⟨vc.groupId⟩ else vc.contents
      colNum := vc.loadedColNum reads db } := by
  obtain ⟨ri, rc⟩ := reads
  cases ri with
  | false => simp [loadResults, getItems, loadedColNum]
  | true =>
    cases rc with
    | false => simp [loadResults, getItems, getContentsList, loadedColNum]
    | true =>
      simp only [loadResults, getItems, getContentsList, loadedColNum, if_true, true_and]
      split
      case isFalse hlen => simp
      case isTrue hlen =>
        have hlast : (db.contentsOf vc.groupId).getLast? =
            some ((db.contentsOf vc.groupId)[(db.contentsOf vc.groupId).length - 1]) := by
          rw [List.getLast?_eq_getElem?, List.getElem?_eq_getElem]
        have hid := Table.numbered_iff.mp hnum _ (show
          (db.contentsOf vc.groupId).length - 1 < (db.contentsOf vc.groupId).length by omega)
        rw [hlast, Option.map_some, hid]
        refine congrArg some ?_
        split
        case isTrue hgt => simp [show max vc.colNum (db.contentsOf vc.groupId).length =
          (db.contentsOf vc.groupId).length by omega]
        case isFalse hle => simp [show max vc.colNum (db.contentsOf vc.groupId).length =
          vc.colNum by omega]

/-- **`viewDidLoad` in one equation.**  With the columns of the group numbered
and both results loaded, before or now, nothing traps. -/
theorem viewDidLoad_eq (hnum : db.ColumnsNumbered vc.groupId)
    (hload : vc.Loaded ∨ (reads.items ∧ reads.contents)) (hcol : 1 ≤ vc.colNum)
    (hfive : vc.loadedColNum reads db ≤ 5) :
    vc.viewDidLoad reads width db = some (vc.redisplayed reads width db) := by
  have hitems : (if reads.items then some ⟨vc.groupId⟩ else vc.items) =
      some (⟨vc.groupId⟩ : Results CompareItemRealm) := by
    rcases hload with hload | ⟨hitems, -⟩
    · simp [hload.items]
    · rw [if_pos hitems]
  have hcontents : (if reads.items ∧ reads.contents then some ⟨vc.groupId⟩ else vc.contents) =
      some (⟨vc.groupId⟩ : Results CompareContentsRealm) := by
    rcases hload with hload | hreads
    · simp [hload.contents]
    · rw [if_pos hreads]
  have hcol' : 1 ≤ vc.loadedColNum reads db := by
    unfold loadedColNum
    split
    · omega
    · exact hcol
  rw [viewDidLoad, loadResults_eq hnum]
  simp only [Option.bind_eq_bind, Option.bind_some, hitems, hcontents, Option.map_some,
    loadMemos_eq hcol', loadNames_eq hnum]
  refine congrArg some ?_
  rw [redisplayed, CompareMainVC.mk.injEq]
  refine ⟨rfl, rfl, rfl, rfl, rfl, funext fun f => ?_, rfl, rfl⟩
  -- each kind of field is assigned by one or two of the parts
  cases f with
  | groupNameTF =>
    simp [loadGroupName_apply, loadRows_of_other, loadRow1_of_other, reloaded, Realm.stored]
  | nameTF c =>
    simp [loadGroupName_apply, loadRows_of_other, loadRow1_of_other, reloaded, Realm.stored]
  | memoTV c =>
    simp [loadGroupName_apply, loadRows_of_other, loadRow1_of_other, reloaded, Realm.stored]
  | itemTF k =>
    by_cases hk : k = 0 <;>
      simp [loadGroupName_apply, loadRows_itemTF, loadRow1_itemTF, reloaded, Realm.stored, hk]
  | contentTF c k =>
    by_cases hk : k = 0 <;>
      simp [loadGroupName_apply, loadRows_contentTF,
        loadRow1_contentTF (head?_eq_firstWithId hnum) hfive, reloaded, Realm.stored, hk]

/-- A first `viewDidLoad` in which a read throws traps on results that were
never loaded. -/
theorem viewDidLoad_eq_none (hnum : db.ColumnsNumbered vc.groupId) (hitems : vc.items = none)
    (hcontents : vc.contents = none) (hreads : ¬ (reads.items ∧ reads.contents)) :
    vc.viewDidLoad reads width db = none := by
  rw [viewDidLoad, loadResults_eq hnum]
  simp only [Option.bind_eq_bind, Option.bind_some, if_neg hreads, hcontents, Option.map_none,
    Option.bind_none]
  cases hi : reads.items with
  | false => simp [hitems]
  | true => simp

end CompareMainVC

end HikakuKun
