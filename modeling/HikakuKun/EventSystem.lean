/-
Event systems with traps.

A program that reacts to events is a state, a condition telling which events
can happen in it, and a handler.  A handler may trap (a forced unwrap of
nothing, an index out of range): the process is gone and the run ends there.

* `Run` — finite runs, none of whose handlers traps;
* `Run.invariant`, `Run.invariant_on` — what one step preserves, a run
  preserves;
* `track`, `Run.refines` — an abstract value carried along a run;
* `AlongRun` — a condition on every step taken by a list of events, and
  `alongRun_congr` to exchange conditions that agree where an invariant holds;
* `Since` — a step that met a condition, and what was met by every step since;
  `Run.since` finds the step that brought a property about;
* `Hom` — a map of states and events that commutes with the handlers, and so
  with runs;
* `exec` — an executable version of `Run` for concrete event lists.
-/
import Mathlib.Tactic.Common

/-- A deterministic system driven by events.  `enabled s e` says that `e` can
happen in `s`; `step s e` is `none` when handling `e` traps. -/
structure EventSystem (σ ε : Type*) where
  enabled : σ → ε → Prop
  step : σ → ε → Option σ

namespace EventSystem

variable {σ ε : Type*} {M : EventSystem σ ε} {s t u : σ} {e : ε} {es fs : List ε}

/-- `M.Run s es t`: from `s` the events `es` happen in order, no handler
traps, and the last state is `t`. -/
inductive Run (M : EventSystem σ ε) : σ → List ε → σ → Prop
  | nil (s : σ) : Run M s [] s
  | cons {s s' t : σ} {e : ε} {es : List ε} :
      M.enabled s e → M.step s e = some s' → Run M s' es t → Run M s (e :: es) t

theorem run_nil_iff : M.Run s [] t ↔ s = t := by
  constructor
  · intro h
    cases h
    rfl
  · rintro rfl
    exact .nil s

theorem run_cons_iff :
    M.Run s (e :: es) t ↔ M.enabled s e ∧ ∃ s', M.step s e = some s' ∧ M.Run s' es t := by
  constructor
  · intro h
    cases h with
    | cons he hs hr => exact ⟨he, _, hs, hr⟩
  · rintro ⟨he, s', hs, hr⟩
    exact .cons he hs hr

theorem run_append_iff :
    M.Run s (es ++ fs) u ↔ ∃ t, M.Run s es t ∧ M.Run t fs u := by
  induction es generalizing s with
  | nil =>
    constructor
    · intro h
      exact ⟨s, .nil s, h⟩
    · rintro ⟨t, ht, hu⟩
      rwa [run_nil_iff.mp ht]
  | cons e es ih =>
    rw [List.cons_append, run_cons_iff]
    constructor
    · rintro ⟨he, s', hs, hr⟩
      obtain ⟨t, ht, hu⟩ := ih.mp hr
      exact ⟨t, .cons he hs ht, hu⟩
    · rintro ⟨t, ht, hu⟩
      obtain ⟨he, s', hs, hr⟩ := run_cons_iff.mp ht
      exact ⟨he, s', hs, ih.mpr ⟨t, hr, hu⟩⟩

theorem run_single_iff : M.Run s [e] t ↔ M.enabled s e ∧ M.step s e = some t := by
  rw [run_cons_iff]
  constructor
  · rintro ⟨he, s', hs, hr⟩
    rw [run_nil_iff.mp hr] at hs
    exact ⟨he, hs⟩
  · rintro ⟨he, hs⟩
    exact ⟨he, t, hs, .nil t⟩

theorem Run.append (h : M.Run s es t) (h' : M.Run t fs u) : M.Run s (es ++ fs) u :=
  run_append_iff.mpr ⟨t, h, h'⟩

theorem Run.snoc (h : M.Run s es t) (he : M.enabled t e) (hs : M.step t e = some u) :
    M.Run s (es ++ [e]) u :=
  h.append (run_single_iff.mpr ⟨he, hs⟩)

/-- Induction on a run from its end: a property of what has happened so far. -/
theorem Run.snoc_induction {P : List ε → σ → Prop} (h : M.Run s es t) (nil : P [] s)
    (snoc : ∀ {fs u e u'}, M.Run s fs u → P fs u → M.enabled u e → M.step u e = some u' →
      P (fs ++ [e]) u') : P es t := by
  have hfrom : ∀ {u es t}, M.Run u es t → ∀ fs, M.Run s fs u → P fs u → P (fs ++ es) t := by
    intro u es t h
    induction h with
    | nil u =>
      intro fs _ hP
      rwa [List.append_nil]
    | @cons u u' t e es he hs _ ih =>
      intro fs hfs hP
      rw [List.append_cons]
      exact ih _ (hfs.snoc he hs) (snoc hfs hP he hs)
  exact hfrom h [] (.nil s) nil

/-- The events of a run determine where it ends. -/
theorem Run.det (h : M.Run s es t) : ∀ {u}, M.Run s es u → t = u := by
  induction h with
  | nil s => exact fun hu => run_nil_iff.mp hu
  | cons he hs _ ih =>
    intro u hu
    obtain ⟨-, s'', hs'', hr⟩ := run_cons_iff.mp hu
    rw [hs, Option.some_inj] at hs''
    subst hs''
    exact ih hr

/-! ### Invariants -/

/-- What every step over events of `P` preserves, every run over such events
preserves. -/
theorem Run.invariant_on {I : σ → Prop} {P : ε → Prop}
    (hI : ∀ {s e s'}, I s → P e → M.enabled s e → M.step s e = some s' → I s')
    (h : M.Run s es t) (hP : ∀ e ∈ es, P e) (hs : I s) : I t := by
  induction h with
  | nil s => exact hs
  | cons he hstep _ ih =>
    exact ih (fun e he' => hP e (List.mem_cons_of_mem _ he'))
      (hI hs (hP _ List.mem_cons_self) he hstep)

theorem Run.invariant {I : σ → Prop}
    (hI : ∀ {s e s'}, I s → M.enabled s e → M.step s e = some s' → I s')
    (h : M.Run s es t) (hs : I s) : I t :=
  h.invariant_on (P := fun _ => True) (fun hi _ he hst => hI hi he hst)
    (fun _ _ => trivial) hs

/-- Where some run always lowers a measure, some run lowers it to 0. -/
theorem exists_run_of_decreasing {I : σ → Prop} {P : ε → Prop} (μ : σ → ℕ)
    (h : ∀ s, I s → μ s ≠ 0 → ∃ es t, M.Run s es t ∧ (∀ e ∈ es, P e) ∧ I t ∧ μ t < μ s) :
    ∀ s, I s → ∃ es t, M.Run s es t ∧ (∀ e ∈ es, P e) ∧ I t ∧ μ t = 0 := by
  intro s
  induction hn : μ s using Nat.strongRecOn generalizing s with
  | ind n ih =>
    intro hs
    by_cases h0 : μ s = 0
    · exact ⟨[], s, .nil s, fun _ he => absurd he List.not_mem_nil, hs, h0⟩
    · obtain ⟨es, t, hes, hP, ht, hlt⟩ := h s hs h0
      obtain ⟨fs, u, hfs, hP', hu, hu0⟩ := ih (μ t) (hn ▸ hlt) t rfl ht
      refine ⟨es ++ fs, u, hes.append hfs, ?_, hu, hu0⟩
      intro e he
      rcases List.mem_append.mp he with he | he
      · exact hP e he
      · exact hP' e he

/-! ### Refinement -/

variable {α : Type*}

/-- An abstract value updated along with the system, by an operation that may
look at the state. -/
def track (M : EventSystem σ ε) (op : σ → ε → α → α) : σ → List ε → α → α
  | _, [], a => a
  | s, e :: es, a => ((M.step s e).map fun s' => track M op s' es (op s e a)).getD a

/-- A relation that every step preserves, the system taking its step and the
abstract value its operation, holds at the end of every run. -/
theorem Run.refines {op : σ → ε → α → α} {R : σ → α → Prop} {P : ε → Prop}
    (hR : ∀ {s e s' a}, R s a → P e → M.enabled s e → M.step s e = some s' → R s' (op s e a))
    (h : M.Run s es t) (hP : ∀ e ∈ es, P e) : ∀ {a}, R s a → R t (M.track op s es a) := by
  induction h with
  | nil s => exact fun ha => ha
  | cons he hs _ ih =>
    intro a ha
    rw [track, hs, Option.map_some, Option.getD_some]
    exact ih (fun e he' => hP e (List.mem_cons_of_mem _ he'))
      (hR ha (hP _ List.mem_cons_self) he hs)

/-! ### Conditions on the steps of a run -/

/-- `C` holds of every step that the events take one after the other,
up to and including the first that traps. -/
def AlongRun (M : EventSystem σ ε) (C : σ → ε → Prop) : σ → List ε → Prop
  | _, [] => True
  | s, e :: es => C s e ∧ ∀ s', M.step s e = some s' → AlongRun M C s' es

theorem alongRun_of_forall {C : σ → ε → Prop} (h : ∀ e ∈ es, ∀ s, C s e) :
    M.AlongRun C s es := by
  induction es generalizing s with
  | nil => trivial
  | cons e es ih =>
    exact ⟨h e List.mem_cons_self s,
      fun s' _ => ih fun e' he' => h e' (List.mem_cons_of_mem _ he')⟩

theorem alongRun_append {C : σ → ε → Prop} (h : M.Run s es t) :
    M.AlongRun C s (es ++ fs) ↔ M.AlongRun C s es ∧ M.AlongRun C t fs := by
  induction h with
  | nil s => exact ⟨fun hfs => ⟨trivial, hfs⟩, fun hfs => hfs.2⟩
  | @cons s s' t e es he hs _ ih =>
    constructor
    · rintro ⟨hC, hrest⟩
      obtain ⟨hes, hfs⟩ := ih.mp (hrest s' hs)
      refine ⟨⟨hC, ?_⟩, hfs⟩
      intro s'' hs''
      rwa [← Option.some_inj.mp (hs.symm.trans hs'')]
    · rintro ⟨⟨hC, hrest⟩, hfs⟩
      refine ⟨hC, ?_⟩
      intro s'' hs''
      rw [← Option.some_inj.mp (hs.symm.trans hs'')]
      exact ih.mpr ⟨hrest s' hs, hfs⟩

theorem Run.alongRun_enabled (h : M.Run s es t) : M.AlongRun M.enabled s es := by
  induction h with
  | nil s => trivial
  | cons he hs _ ih =>
    refine ⟨he, ?_⟩
    intro s'' hs''
    rwa [← Option.some_inj.mp (hs.symm.trans hs'')]

/-- What every step that meets a condition preserves, a run all of whose steps
meet it preserves. -/
theorem Run.invariant_along {I : σ → Prop} {C : σ → ε → Prop}
    (hI : ∀ {s e s'}, I s → C s e → M.enabled s e → M.step s e = some s' → I s')
    (h : M.Run s es t) : M.AlongRun C s es → I s → I t := by
  induction h with
  | nil s => exact fun _ hs => hs
  | cons he hstep _ ih =>
    rintro ⟨hC, hrest⟩ hs
    exact ih (hrest _ hstep) (hI hs hC he hstep)

/-- Two conditions that agree on enabled events wherever an invariant holds
can be exchanged along every list of enabled events. -/
theorem alongRun_congr {I : σ → Prop} {C D : σ → ε → Prop}
    (hI : ∀ {s e s'}, I s → M.enabled s e → M.step s e = some s' → I s')
    (hCD : ∀ {s e}, I s → M.enabled s e → (C s e ↔ D s e)) :
    ∀ {es s}, I s → M.AlongRun M.enabled s es →
      (M.AlongRun C s es ↔ M.AlongRun D s es) := by
  intro es
  -- on the events; the invariant moves on with every step that does not trap
  induction es with
  | nil => exact fun _ _ => Iff.rfl
  | cons e es ih =>
    rintro s hs ⟨he, hrest⟩
    have htail : ∀ s', M.step s e = some s' → (M.AlongRun C s' es ↔ M.AlongRun D s' es) :=
      fun s' hstep => ih (hI hs he hstep) (hrest s' hstep)
    constructor
    · rintro ⟨hC, hC'⟩
      exact ⟨(hCD hs he).mp hC, fun s' hstep => (htail s' hstep).mp (hC' s' hstep)⟩
    · rintro ⟨hD, hD'⟩
      exact ⟨(hCD hs he).mpr hD, fun s' hstep => (htail s' hstep).mpr (hD' s' hstep)⟩

/-! ### Since -/

/-- Some step of the run met `P`, and every step after it met `C`. -/
def Since (M : EventSystem σ ε) (P C : σ → ε → Prop) (s : σ) (es : List ε) : Prop :=
  ∃ before e after u u', es = before ++ e :: after ∧ M.Run s before u ∧ P u e ∧
    M.step u e = some u' ∧ M.AlongRun C u' after

variable {P C : σ → ε → Prop}

theorem since_snoc (h : M.Run s es t) (hP : P t e) (hs : M.step t e = some u) :
    M.Since P C s (es ++ [e]) :=
  ⟨es, e, [], t, u, rfl, h, hP, hs, trivial⟩

theorem Since.snoc (h : M.Since P C s es) (hrun : M.Run s es t) (hC : C t e) :
    M.Since P C s (es ++ [e]) := by
  obtain ⟨before, e', after, u, u', rfl, hu, hP, hs, halong⟩ := h
  obtain ⟨v, hv, hafter⟩ := run_append_iff.mp hrun
  obtain rfl := hu.det hv
  obtain ⟨-, v', hs', hrest⟩ := run_cons_iff.mp hafter
  obtain rfl : u' = v' := Option.some_inj.mp (hs.symm.trans hs')
  refine ⟨before, e', after ++ [e], u, u', by rw [List.append_assoc, List.cons_append], hu, hP,
    hs, ?_⟩
  exact (alongRun_append hrest).mpr ⟨halong, hC, fun _ _ => trivial⟩

/-- What holds at the end of a run and not at its start was brought about by
some step, and kept by every step since. -/
theorem Run.since {Q : σ → Prop} (h : M.Run s es t) (h0 : ¬ Q s)
    (hstep : ∀ {fs u e u'}, M.Run s fs u → M.enabled u e → M.step u e = some u' → Q u' →
      P u e ∨ (Q u ∧ C u e)) (ht : Q t) : M.Since P C s es := by
  refine h.snoc_induction (P := fun es t => Q t → M.Since P C s es) (fun hs => absurd hs h0)
    ?_ ht
  intro fs u e u' hrun ih he hs hQ
  rcases hstep hrun he hs hQ with hP | ⟨hQ, hC⟩
  · exact since_snoc hrun hP hs
  · exact (ih hQ).snoc hrun hC

/-! ### Homomorphisms -/

section Hom

variable {σ' ε' : Type*} {N : EventSystem σ' ε'} {I : σ → Prop} {φ : σ → σ'} {ψ : ε → ε'}

/-- Where `I` holds, `N` does on the images of state and event what `M` does on
them. -/
structure Hom (M : EventSystem σ ε) (N : EventSystem σ' ε') (I : σ → Prop) (φ : σ → σ')
    (ψ : ε → ε') : Prop where
  invariant : ∀ {s e s'}, I s → M.enabled s e → M.step s e = some s' → I s'
  enabled : ∀ {s e}, I s → (N.enabled (φ s) (ψ e) ↔ M.enabled s e)
  step : ∀ {s e}, I s → M.enabled s e → N.step (φ s) (ψ e) = (M.step s e).map φ

/-- The runs of the images are the images of the runs. -/
theorem Hom.run_map_iff (h : M.Hom N I φ ψ) {u : σ'} (hs : I s) :
    N.Run (φ s) (es.map ψ) u ↔ ∃ t, M.Run s es t ∧ φ t = u := by
  induction es generalizing s with
  | nil =>
    rw [List.map_nil, run_nil_iff]
    constructor
    · intro hu
      exact ⟨s, .nil s, hu⟩
    · rintro ⟨t, ht, hu⟩
      rwa [run_nil_iff.mp ht]
  | cons e es ih =>
    rw [List.map_cons, run_cons_iff]
    constructor
    · rintro ⟨he, u', hu', hrest⟩
      have he := (h.enabled hs).mp he
      rw [h.step hs he, Option.map_eq_some_iff] at hu'
      obtain ⟨s', hs', rfl⟩ := hu'
      obtain ⟨t, ht, hu⟩ := (ih (h.invariant hs he hs')).mp hrest
      exact ⟨t, .cons he hs' ht, hu⟩
    · rintro ⟨t, ht, hu⟩
      obtain ⟨he, s', hs', hrest⟩ := run_cons_iff.mp ht
      refine ⟨(h.enabled hs).mpr he, φ s', ?_, (ih (h.invariant hs he hs')).mpr ⟨t, hrest, hu⟩⟩
      rw [h.step hs he, hs', Option.map_some]

/-- What a homomorphism does not see has no influence on what it sees. -/
theorem Hom.exists_run (h : M.Hom N I φ ψ) {s' : σ} {es' : List ε} (hs : I s) (hs' : I s')
    (hsame : φ s = φ s') (hes : es.map ψ = es'.map ψ) (hrun : M.Run s es t) :
    ∃ t', M.Run s' es' t' ∧ φ t = φ t' := by
  have himage := (h.run_map_iff hs).mpr ⟨t, hrun, rfl⟩
  rw [hsame, hes] at himage
  obtain ⟨t', ht', heq⟩ := (h.run_map_iff hs').mp himage
  exact ⟨t', ht', heq.symm⟩

end Hom

/-! ### Running concrete event lists -/

/-- Run a list of events, checking that each one can happen. -/
def exec (M : EventSystem σ ε) [∀ s e, Decidable (M.enabled s e)] : σ → List ε → Option σ
  | s, [] => some s
  | s, e :: es => if M.enabled s e then (M.step s e).bind fun s' => exec M s' es else none

theorem run_of_exec [∀ s e, Decidable (M.enabled s e)] :
    ∀ {es s t}, M.exec s es = some t → M.Run s es t := by
  intro es
  induction es with
  | nil =>
    intro s t h
    rw [run_nil_iff]
    exact Option.some_inj.mp h
  | cons e es ih =>
    intro s t h
    rw [exec] at h
    split at h
    case isTrue he =>
      obtain ⟨s', hs, hr⟩ := Option.bind_eq_some_iff.mp h
      exact .cons he hs (ih hr)
    case isFalse => simp at h

instance decidableAlongRun {C : σ → ε → Prop} [∀ s e, Decidable (C s e)] :
    ∀ (es : List ε) (s : σ), Decidable (M.AlongRun C s es)
  | [], _ => .isTrue trivial
  | e :: es, s =>
    match hs : M.step s e with
    | none => decidable_of_iff (C s e)
      ⟨fun hC => ⟨hC, fun s' hs' => absurd (hs.symm.trans hs') (Option.some_ne_none s').symm⟩,
        fun h => h.1⟩
    | some s' =>
      have : Decidable (M.AlongRun C s' es) := decidableAlongRun es s'
      decidable_of_iff (C s e ∧ M.AlongRun C s' es)
        ⟨fun h => ⟨h.1, fun _ hs' => Option.some_inj.mp (hs.symm.trans hs') ▸ h.2⟩,
          fun h => ⟨h.1, h.2 s' hs⟩⟩

theorem run_get_exec [∀ s e, Decidable (M.enabled s e)] (h : (M.exec s es).isSome = true) :
    M.Run s es ((M.exec s es).get h) :=
  run_of_exec (Option.some_get h).symm

end EventSystem
