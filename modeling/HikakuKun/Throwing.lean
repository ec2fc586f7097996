/-
Throwing operations on a store.

An operation on a store either returns, with the store it produced, or
throws, leaving behind whatever it had written until then.  Both outcomes
carry the store, so a throwing operation is `σ → Except σ σ`.

* `attempt` — an atomic operation: when it throws, it wrote nothing;
* `foldlM_range_attempt_cases` — a loop of atomic operations is not atomic:
  when it throws, it has performed the operations before the failing one;
* `map` — a throwing operation seen through a map of stores;
* `disks` — the stores that a process killed during a sequence of operations
  may leave; `exists_attemptAll_of_mem_disks` finds each of them at the end of
  the same sequence with one more operation that throws.
-/
import Mathlib.Tactic.Common

namespace Throwing

variable {σ : Type*} {s : σ}

/-- The store an operation leaves behind, whether it returned or threw. -/
def store : Except σ σ → σ
  | .ok s => s
  | .error s => s

@[simp] theorem store_ok (s : σ) : store (.ok s) = s := rfl

@[simp] theorem store_error (s : σ) : store (.error s) = s := rfl

/-- An atomic operation: perform `f`, or throw with the store as it was.  Of an
operation modelled by it this is an assumption. -/
def attempt (succeeds : Bool) (f : σ → σ) (s : σ) : Except σ σ :=
  if succeeds then .ok (f s) else .error s

@[simp] theorem attempt_true (f : σ → σ) (s : σ) : attempt true f s = .ok (f s) := rfl

@[simp] theorem attempt_false (f : σ → σ) (s : σ) : attempt false f s = .error s := rfl

/-- An atomic operation that throws leaves the store as it was. -/
theorem eq_of_attempt_eq_error {succeeds : Bool} {f : σ → σ} {t : σ}
    (h : attempt succeeds f s = .error t) : t = s := by
  cases succeeds with
  | false => exact (Except.error.inj h).symm
  | true => cases h

/-- A loop of atomic operations either performs all of them, or throws at
some `j` after performing those before `j`. -/
theorem foldlM_range_attempt_cases (succeeds : ℕ → Bool) (f : ℕ → σ → σ) (s : σ) (n : ℕ) :
    ((∀ i < n, succeeds i = true) ∧
      (List.range n).foldlM (fun s i => attempt (succeeds i) (f i) s) s
        = .ok ((List.range n).foldl (fun s i => f i s) s)) ∨
    ∃ j < n, (∀ i < j, succeeds i = true) ∧ succeeds j = false ∧
      (List.range n).foldlM (fun s i => attempt (succeeds i) (f i) s) s
        = .error ((List.range j).foldl (fun s i => f i s) s) := by
  induction n with
  | zero => exact .inl ⟨fun i hi => absurd hi (Nat.not_lt_zero i), rfl⟩
  | succ n ih =>
    rw [List.range_succ, List.foldlM_append, List.foldl_append]
    rcases ih with ⟨hall, hok⟩ | ⟨j, hj, hbefore, hfail, herr⟩
    · rw [hok]
      by_cases hn : succeeds n = true
      · refine .inl ⟨?_, by simp [hn, bind, Except.bind, pure, Except.pure]⟩
        intro i hi
        rcases Nat.lt_succ_iff_lt_or_eq.mp hi with hi | rfl
        · exact hall i hi
        · exact hn
      · rw [Bool.not_eq_true] at hn
        exact .inr ⟨n, Nat.lt_succ_self n, hall, hn, by simp [hn, bind, Except.bind]⟩
    · exact .inr ⟨j, Nat.lt_succ_of_lt hj, hbefore, hfail, by rw [herr]; rfl⟩

/-! ### Sequences of operations -/

/-- Attempt operations one after the other, up to the first that throws. -/
def attemptAll (succeeds : ℕ → Bool) : List (σ → σ) → σ → Except σ σ
  | [], s => .ok s
  | f :: fs, s =>
    (attempt (succeeds 0) f s).bind fun s' => attemptAll (fun i => succeeds (i + 1)) fs s'

/-- The stores there are in the meantime: the first, and one after each
operation that is performed. -/
def disks (succeeds : ℕ → Bool) : List (σ → σ) → σ → List σ
  | [], s => [s]
  | f :: fs, s => s :: if succeeds 0 then disks (fun i => succeeds (i + 1)) fs (f s) else []

variable {succeeds : ℕ → Bool} {fs : List (σ → σ)} {t : σ}

/-- The last of them is what the sequence leaves. -/
theorem getLast?_disks : (disks succeeds fs s).getLast? = some (store (attemptAll succeeds fs s)) := by
  induction fs generalizing succeeds s with
  | nil => rfl
  | cons f fs ih =>
    rw [disks, attemptAll]
    cases succeeds 0 with
    | false => rfl
    | true =>
      rw [if_pos rfl, List.getLast?_cons, ih]
      rfl

/-- Killed between two operations, a process leaves what the sequence leaves
when the next operation throws. -/
theorem exists_attemptAll_of_mem_disks (h : t ∈ disks succeeds fs s) :
    ∃ n, store (attemptAll (fun i => succeeds i && decide (i ≠ n)) fs s) = t := by
  induction fs generalizing succeeds s with
  | nil => exact ⟨0, (List.mem_singleton.mp h).symm⟩
  | cons f fs ih =>
    rcases List.mem_cons.mp h with rfl | h
    · refine ⟨0, ?_⟩
      rw [attemptAll, decide_eq_false (fun hne => hne rfl), Bool.and_false]
      rfl
    · split at h
      case isTrue hf =>
        obtain ⟨n, hn⟩ := ih h
        refine ⟨n + 1, ?_⟩
        rw [attemptAll, hf, ← hn]
        simp only [Nat.succ_inj, ne_eq]
        rfl
      case isFalse => cases h

/-- A loop of attempts is a sequence of operations. -/
theorem foldlM_range_attempt_eq (succeeds : ℕ → Bool) (f : ℕ → σ → σ) (s : σ) (n : ℕ) :
    (List.range n).foldlM (fun s i => attempt (succeeds i) (f i) s) s =
      attemptAll succeeds ((List.range n).map f) s := by
  have hfrom : ∀ k s, (List.range' k n).foldlM (fun s i => attempt (succeeds i) (f i) s) s =
      attemptAll (fun i => succeeds (k + i)) ((List.range' k n).map f) s := by
    induction n with
    | zero => exact fun k s => rfl
    | succ n ih =>
      intro k s
      have hshift : (fun i => succeeds (k + (i + 1))) = fun i => succeeds (k + 1 + i) := by
        funext i
        rw [Nat.add_assoc, Nat.add_comm 1]
      rw [List.range'_succ, List.foldlM_cons, List.map_cons, attemptAll, hshift, Nat.add_zero]
      exact congrArg _ (funext fun s' => ih (k + 1) s')
  rw [List.range_eq_range', hfrom 0 s]
  simp only [Nat.zero_add]

/-! ### Maps of stores -/

variable {τ : Type*} {φ : σ → τ}

/-- The same outcome, with the image of the store. -/
def map (φ : σ → τ) : Except σ σ → Except τ τ
  | .ok s => .ok (φ s)
  | .error s => .error (φ s)

theorem store_map (φ : σ → τ) (x : Except σ σ) : store (map φ x) = φ (store x) := by
  cases x with
  | ok s => rfl
  | error s => rfl

/-- An operation that does on the image what another one does on the store. -/
theorem attempt_map {succeeds : Bool} {f : σ → σ} {f' : τ → τ} (h : f' (φ s) = φ (f s)) :
    attempt succeeds f' (φ s) = map φ (attempt succeeds f s) := by
  cases succeeds with
  | false => rfl
  | true => exact congrArg Except.ok h

theorem bind_map {x : Except σ σ} {k : σ → Except σ σ} {k' : τ → Except τ τ}
    (h : ∀ s, k' (φ s) = map φ (k s)) : (map φ x >>= k') = map φ (x >>= k) := by
  cases x with
  | ok s => exact h s
  | error s => rfl

theorem foldlM_map {ι : Type*} {k : σ → ι → Except σ σ} {k' : τ → ι → Except τ τ}
    (h : ∀ s i, k' (φ s) i = map φ (k s i)) (l : List ι) (s : σ) :
    l.foldlM k' (φ s) = map φ (l.foldlM k s) := by
  induction l generalizing s with
  | nil => rfl
  | cons i l ih =>
    rw [List.foldlM_cons, List.foldlM_cons, h]
    exact bind_map ih

end Throwing
