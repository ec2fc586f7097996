/-
Tables kept in insertion order.

A table without a primary key is a list of records, enumerated in the order
they were added.  Queries select by a key (`group`), an update through an
object reference changes the first record that matches (`modifyFirst`), and
the records of one group may be numbered `0, 1, 2, …` in table order
(`Numbered`).

* `group_append`, `group_erase_of_ne`, `group_modifyFirst` — how the operations look
  from one group, and that the other groups are left alone;
* `Numbered.head?_group` — in a numbered group, the first record with number
  `c` is the `c`-th record;
* `upsert` — update the record with a given number or append it; on numbered
  groups `take_upsert` says what the first records are afterwards.
-/
import Mathlib.Data.List.Nodup
import Mathlib.Tactic.Common

namespace Table

variable {α κ : Type*}

/-! ### Groups -/

section Group

variable [DecidableEq κ] {key : α → κ} {k k' : κ} {t : List α} {a : α}

/-- The records with key `k`, in table order. -/
def group (key : α → κ) (k : κ) (t : List α) : List α := t.filter fun a => key a = k

/-- The table without the records of key `k`. -/
def erase (key : α → κ) (k : κ) (t : List α) : List α := t.filter fun a => key a ≠ k

@[simp] theorem mem_group : a ∈ group key k t ↔ a ∈ t ∧ key a = k := by simp [group]

@[simp] theorem mem_erase : a ∈ erase key k t ↔ a ∈ t ∧ key a ≠ k := by simp [erase]

theorem group_append (t t' : List α) :
    group key k (t ++ t') = group key k t ++ group key k t' :=
  List.filter_append ..

theorem group_eq_self (h : ∀ a ∈ t, key a = k) : group key k t = t :=
  List.filter_eq_self.mpr fun a ha => by simpa using h a ha

theorem group_eq_nil_iff : group key k t = [] ↔ ∀ a ∈ t, key a ≠ k := by
  simp [group, List.filter_eq_nil_iff]

theorem group_erase_self : group key k (erase key k t) = [] :=
  group_eq_nil_iff.mpr fun _ ha => (mem_erase.mp ha).2

theorem group_erase_of_ne (h : k' ≠ k) : group key k' (erase key k t) = group key k' t := by
  rw [group, group, erase, List.filter_filter]
  refine List.filter_congr fun a _ => ?_
  by_cases ha : key a = k'
  · simp [ha, h]
  · simp [ha]

/-- A map of records that keeps their keys goes through. -/
theorem group_map {β : Type*} {key' : β → κ} {φ : α → β} (h : ∀ a, key' (φ a) = key a) (k : κ)
    (t : List α) : group key' k (t.map φ) = (group key k t).map φ := by
  rw [group, group, List.filter_map]
  refine congrArg (List.map φ) (List.filter_congr fun a _ => ?_)
  exact decide_eq_decide.mpr (by rw [h a])

theorem erase_map {β : Type*} {key' : β → κ} {φ : α → β} (h : ∀ a, key' (φ a) = key a) (k : κ)
    (t : List α) : erase key' k (t.map φ) = (erase key k t).map φ := by
  rw [erase, erase, List.filter_map]
  refine congrArg (List.map φ) (List.filter_congr fun a _ => ?_)
  exact decide_eq_decide.mpr (by rw [h a])

/-- With at most one record in each group, no key occurs twice. -/
theorem nodup_map_of_group (h : ∀ k, (group key k t).length ≤ 1) : (t.map key).Nodup := by
  rw [List.nodup_iff_count_le_one]
  intro k
  have hcount : (t.map key).count k = (group key k t).length := by
    rw [group, ← List.countP_eq_length_filter, List.count, List.countP_map]
    rfl
  rw [hcount]
  exact h k

end Group

/-! ### Updating the first match -/

section ModifyFirst

variable {p q : α → Bool} {f : α → α} {l l' : List α}

/-- Change the first record that satisfies `p`. -/
def modifyFirst (p : α → Bool) (f : α → α) : List α → List α
  | [] => []
  | a :: l => if p a then f a :: l else a :: modifyFirst p f l

theorem modifyFirst_congr (h : ∀ a ∈ l, p a = q a) : modifyFirst p f l = modifyFirst q f l := by
  induction l with
  | nil => rfl
  | cons a l ih =>
    rw [modifyFirst, modifyFirst, h a List.mem_cons_self,
      ih fun b hb => h b (List.mem_cons_of_mem _ hb)]

theorem modifyFirst_append_right (h : ∀ a ∈ l, p a = false) :
    modifyFirst p f (l ++ l') = l ++ modifyFirst p f l' := by
  induction l with
  | nil => rfl
  | cons a l ih =>
    rw [List.cons_append, modifyFirst, if_neg (by simp [h a List.mem_cons_self]),
      ih fun b hb => h b (List.mem_cons_of_mem _ hb), List.cons_append]

theorem filter_modifyFirst (h : ∀ a, p a = true → q a = true ∧ q (f a) = true) :
    (modifyFirst p f l).filter q = modifyFirst p f (l.filter q) := by
  induction l with
  | nil => rfl
  | cons a l ih =>
    by_cases hp : p a = true
    · obtain ⟨hq, hq'⟩ := h a hp
      simp [modifyFirst, hp, hq, hq']
    · by_cases hq : q a = true
      · simp [modifyFirst, hp, hq, ih]
      · simp [modifyFirst, hp, hq, ih]

theorem filter_modifyFirst_of_disjoint (h : ∀ a, p a = true → q a = false ∧ q (f a) = false) :
    (modifyFirst p f l).filter q = l.filter q := by
  induction l with
  | nil => rfl
  | cons a l ih =>
    by_cases hp : p a = true
    · obtain ⟨hq, hq'⟩ := h a hp
      simp [modifyFirst, hp, hq, hq']
    · by_cases hq : q a = true
      · simp [modifyFirst, hp, hq, ih]
      · simp [modifyFirst, hp, hq, ih]

/-- An update that keeps the key keeps the keys of the table. -/
theorem map_modifyFirst {key : α → κ} (hf : ∀ a, key (f a) = key a) :
    (modifyFirst p f l).map key = l.map key := by
  induction l with
  | nil => rfl
  | cons a l ih =>
    rw [modifyFirst]
    split_ifs
    · rw [List.map_cons, List.map_cons, hf]
    · rw [List.map_cons, List.map_cons, ih]

/-- An update goes through a map of records, under a test and an assignment that
do on the images what these do. -/
theorem modifyFirst_map {β : Type*} {φ : α → β} {p' : β → Bool} {f' : β → β}
    (hp : ∀ a, p' (φ a) = p a) (hf : ∀ a, f' (φ a) = φ (f a)) (l : List α) :
    modifyFirst p' f' (l.map φ) = (modifyFirst p f l).map φ := by
  induction l with
  | nil => rfl
  | cons a l ih =>
    rw [List.map_cons, modifyFirst, modifyFirst, hp, hf, ih]
    split_ifs <;> rfl

/-- Assigning what is there changes nothing. -/
theorem modifyFirst_eq_self (h : ∀ a ∈ l, p a = true → f a = a) : modifyFirst p f l = l := by
  induction l with
  | nil => rfl
  | cons a l ih =>
    rw [modifyFirst, ih fun b hb => h b (List.mem_cons_of_mem _ hb)]
    split
    case isTrue hp => rw [h a List.mem_cons_self hp]
    case isFalse => rfl

variable [DecidableEq κ] {key : α → κ} {k k' : κ}

/-- An update inside group `k` is an update of that group. -/
theorem group_modifyFirst (hp : ∀ a, p a = true → key a = k) (hf : ∀ a, key (f a) = key a) :
    group key k (modifyFirst p f l) = modifyFirst p f (group key k l) :=
  filter_modifyFirst fun a ha => by simp [hf a, hp a ha]

/-- An update inside group `k` leaves the other groups alone. -/
theorem group_modifyFirst_of_ne (hp : ∀ a, p a = true → key a = k) (hf : ∀ a, key (f a) = key a)
    (hk : k' ≠ k) : group key k' (modifyFirst p f l) = group key k' l :=
  filter_modifyFirst_of_disjoint fun a ha => by simp [hf a, hp a ha, hk.symm]

end ModifyFirst

/-! ### Numbered groups -/

section Numbered

variable {num : α → ℕ} {l : List α} {a : α} {c i : ℕ}

/-- The records are numbered `0, 1, 2, …` in table order. -/
def Numbered (num : α → ℕ) (l : List α) : Prop := l.map num = List.range l.length

theorem numbered_nil : Numbered num [] := rfl

theorem numbered_iff : Numbered num l ↔ ∀ i (h : i < l.length), num l[i] = i := by
  constructor
  · intro hl i h
    have := congrArg (fun m : List ℕ => m[i]?) hl
    simpa [List.getElem?_range h, h] using this
  · intro h
    refine List.ext_getElem (by simp) fun i hi _ => ?_
    simpa using h i (by simpa using hi)

theorem numbered_map_range {f : ℕ → α} (hf : ∀ i, num (f i) = i) (n : ℕ) :
    Numbered num ((List.range n).map f) := by
  rw [numbered_iff]
  intro i hi
  simp [hf]

theorem Numbered.lt_length (h : Numbered num l) (ha : a ∈ l) : num a < l.length := by
  obtain ⟨i, hi, rfl⟩ := List.getElem_of_mem ha
  rw [numbered_iff.mp h i hi]
  exact hi

theorem Numbered.head?_group (h : Numbered num l) (c : ℕ) :
    (group num c l).head? = l[c]? := by
  rw [group, List.head?_filter]
  by_cases hc : c < l.length
  · rw [List.getElem?_eq_getElem hc, List.find?_eq_some_iff_getElem]
    refine ⟨by simpa using numbered_iff.mp h c hc, c, hc, rfl, ?_⟩
    intro j hj
    have := numbered_iff.mp h j (Nat.lt_trans hj hc)
    simp [this]
    omega
  · rw [List.getElem?_eq_none (by omega), List.find?_eq_none]
    intro a ha
    have := h.lt_length ha
    simp
    omega

theorem Numbered.modifyFirst (h : Numbered num l) (hc : c < l.length) (f : α → α) :
    modifyFirst (fun a => num a = c) f l = l.take c ++ f l[c] :: l.drop (c + 1) := by
  have hsplit : l = l.take c ++ l[c] :: l.drop (c + 1) := by
    rw [List.getElem_cons_drop, List.take_append_drop]
  conv_lhs => rw [hsplit]
  rw [modifyFirst_append_right, Table.modifyFirst,
    if_pos (by simpa using numbered_iff.mp h c hc)]
  -- the records before position `c` have smaller numbers
  intro a ha
  obtain ⟨i, hi, rfl⟩ := List.getElem_of_mem ha
  rw [List.length_take] at hi
  have := numbered_iff.mp h i (by omega)
  rw [List.getElem_take]
  simp [this]
  omega

/-- Update the record with number `c` by `f`, or append `new` if there is
none. -/
def upsert (num : α → ℕ) (c : ℕ) (f : α → α) (new : α) (l : List α) : List α :=
  if (group num c l).head?.isSome then modifyFirst (fun a => num a = c) f l else l ++ [new]

variable {f : α → α} {new : α}

theorem upsert_eq (h : Numbered num l) (hc : c ≤ l.length)
    (hf : ∀ a ∈ l, num a = c → f a = new) :
    upsert num c f new l = l.take c ++ new :: l.drop (c + 1) := by
  rw [upsert, h.head?_group]
  rcases Nat.lt_or_eq_of_le hc with hlt | rfl
  · rw [if_pos (by simp [hlt]), h.modifyFirst hlt,
      hf _ (List.getElem_mem hlt) (numbered_iff.mp h c hlt)]
  · rw [if_neg (by simp), List.take_length, List.drop_eq_nil_of_le (by omega)]

/-- After an upsert at `c` the first `c` records are as before and record `c`
is the new one. -/
theorem take_upsert (h : Numbered num l) (hc : c ≤ l.length)
    (hf : ∀ a ∈ l, num a = c → f a = new) :
    (upsert num c f new l).take (c + 1) = l.take c ++ [new] := by
  have hlen : (l.take c).length = c := by simp [hc]
  rw [upsert_eq h hc hf, List.take_append, hlen, List.take_of_length_le (by omega),
    show c + 1 - c = 1 by omega]
  rfl

theorem length_upsert (h : Numbered num l) (hc : c ≤ l.length)
    (hf : ∀ a ∈ l, num a = c → f a = new) :
    (upsert num c f new l).length = max l.length (c + 1) := by
  rw [upsert_eq h hc hf]
  simp
  omega

theorem Numbered.upsert (h : Numbered num l) (hc : c ≤ l.length)
    (hf : ∀ a ∈ l, num a = c → f a = new) (hn : num new = c) :
    Numbered num (upsert num c f new l) := by
  have hlen := length_upsert h hc hf
  rw [numbered_iff]
  intro i hi
  rw [hlen] at hi
  have hrec : Table.upsert num c f new l = l.take c ++ new :: l.drop (c + 1) := upsert_eq h hc hf
  simp only [hrec]
  -- before, at and after the record that was written
  rcases Nat.lt_trichotomy i c with hic | rfl | hic
  · rw [List.getElem_append_left (by simp; omega), List.getElem_take]
    exact numbered_iff.mp h i (by omega)
  · rw [List.getElem_append_right (by simp [hc])]
    simpa [hc] using hn
  · rw [List.getElem_append_right (by simp; omega)]
    obtain ⟨d, rfl⟩ : ∃ d, i = c + 1 + d := ⟨i - (c + 1), by omega⟩
    have : c + 1 + d - min c l.length = d + 1 := by omega
    simp only [List.length_take, this, List.getElem_cons_succ, List.getElem_drop]
    exact numbered_iff.mp h _ (by omega)

end Numbered

end Table
