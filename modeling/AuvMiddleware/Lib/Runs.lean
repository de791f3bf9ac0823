import Mathlib.Data.List.Basic

/-!
# Runs of a labelled step function

A system is a partial step function on states: `none` says that the step cannot be taken
there. A run is a list of labels. What one step preserves, a run preserves; a condition that
every step of a run meets may be used by the step.
-/

namespace AuvMiddleware.Runs

variable {σ ι : Type}

def run (step : σ → ι → Option σ) : σ → List ι → Option σ
  | s, [] => some s
  | s, i :: is => (step s i).bind fun s' => run step s' is

/-- Every step of the run is taken from a state where `C` holds of it. -/
def Throughout (step : σ → ι → Option σ) (C : σ → ι → Prop) : σ → List ι → Prop
  | _, [] => True
  | s, i :: is => C s i ∧ ∀ s', step s i = some s' → Throughout step C s' is

instance decidableThroughout (step : σ → ι → Option σ) (C : σ → ι → Prop)
    [∀ s i, Decidable (C s i)] : ∀ s is, Decidable (Throughout step C s is)
  | _, [] => isTrue trivial
  | s, i :: is =>
    match hs : step s i with
    | none => decidable_of_iff (C s i)
        ⟨fun h => ⟨h, fun s' h' => by rw [hs] at h'; cases h'⟩, And.left⟩
    | some m =>
      haveI := decidableThroughout step C m is
      decidable_of_iff (C s i ∧ Throughout step C m is)
        ⟨fun h => ⟨h.1, fun s' h' => by rw [hs] at h'; cases h'; exact h.2⟩,
          fun h => ⟨h.1, h.2 m hs⟩⟩

variable {step : σ → ι → Option σ}

theorem throughout_of_labels {A : ι → Prop} (s : σ) {is : List ι} (h : ∀ i ∈ is, A i) :
    Throughout step (fun _ i => A i) s is := by
  induction is generalizing s with
  | nil => trivial
  | cons i is ih =>
    obtain ⟨hi, hrest⟩ := List.forall_mem_cons.mp h
    exact ⟨hi, fun s' _ => ih s' hrest⟩

theorem run_cons {s s' : σ} {i : ι} {is : List ι} (h : run step s (i :: is) = some s') :
    ∃ m, step s i = some m ∧ run step m is = some s' := by
  simpa only [run, Option.bind_eq_some_iff] using h

theorem run_append (s : σ) (is js : List ι) :
    run step s (is ++ js) = (run step s is).bind fun m => run step m js := by
  induction is generalizing s with
  | nil => rfl
  | cons i is ih =>
    simp only [List.cons_append, run]
    cases step s i with
    | none => rfl
    | some m => simpa only [Option.bind_some] using ih m

theorem throughout_cons {C : σ → ι → Prop} {s m : σ} {i : ι} {is : List ι}
    (hstep : step s i = some m) (hi : C s i) (his : Throughout step C m is) :
    Throughout step C s (i :: is) := by
  refine ⟨hi, fun m' hm' => ?_⟩
  cases hstep.symm.trans hm'
  exact his

theorem throughout_append {C : σ → ι → Prop} {s m : σ} {is js : List ι}
    (hrun : run step s is = some m) (his : Throughout step C s is)
    (hjs : Throughout step C m js) : Throughout step C s (is ++ js) := by
  induction is generalizing s with
  | nil =>
    cases hrun
    exact hjs
  | cons i is ih =>
    obtain ⟨m', hm', hrest⟩ := run_cons hrun
    exact throughout_cons hm' his.1 (ih hrest (his.2 m' hm'))

/-- The invariant rule: what holds at the start and survives each step holds after a run. -/
theorem run_invariant {Inv : σ → Prop} (hstep : ∀ s i s', Inv s → step s i = some s' → Inv s')
    {s s' : σ} {is : List ι} (hs : Inv s) (h : run step s is = some s') : Inv s' := by
  induction is generalizing s with
  | nil => cases h; exact hs
  | cons i is ih =>
    obtain ⟨m, hm, hrest⟩ := run_cons h
    exact ih (hstep s i m hs hm) hrest

theorem run_invariant_of {Inv : σ → Prop} {C : σ → ι → Prop}
    (hstep : ∀ s i s', Inv s → C s i → step s i = some s' → Inv s')
    {s s' : σ} {is : List ι} (hs : Inv s) (hc : Throughout step C s is)
    (h : run step s is = some s') : Inv s' := by
  induction is generalizing s with
  | nil => cases h; exact hs
  | cons i is ih =>
    obtain ⟨m, hm, hrest⟩ := run_cons h
    exact ih (hstep s i m hs hc.1 hm) (hc.2 m hm) hrest

/-- The invariant rule with the labels so far: what is kept may speak of them. -/
theorem run_history {Inv : List ι → σ → Prop}
    (hstep : ∀ is s i s', Inv is s → step s i = some s' → Inv (is ++ [i]) s')
    {s s' : σ} {is : List ι} (hs : Inv [] s) (h : run step s is = some s') : Inv is s' := by
  have hgeneral (done : List ι) (m : σ) (hm : Inv done m) (hrest : run step m is = some s') :
      Inv (done ++ is) s' := by
    clear h hs
    induction is generalizing done m with
    | nil =>
      cases hrest
      rw [List.append_nil]
      exact hm
    | cons i is ih =>
      obtain ⟨m', hm', hrest⟩ := run_cons hrest
      have h := ih (done ++ [i]) m' (hstep done m i m' hm hm') hrest
      rwa [List.append_assoc, List.singleton_append] at h
  exact hgeneral [] s hs h

theorem run_established {Q : σ → Prop} {i : ι} (hest : ∀ s s', step s i = some s' → Q s')
    (hkeep : ∀ s j s', Q s → step s j = some s' → Q s') {s s' : σ} {is : List ι} (hi : i ∈ is)
    (h : run step s is = some s') : Q s' := by
  obtain ⟨before, after, rfl⟩ := List.append_of_mem hi
  rw [run_append] at h
  obtain ⟨m, -, hrest⟩ := Option.bind_eq_some_iff.mp h
  obtain ⟨m', hstep, hafter⟩ := run_cons hrest
  exact run_invariant hkeep (hest m m' hstep) hafter

theorem run_total {f : σ → ι → σ} (s : σ) (is : List ι) :
    run (fun s i => some (f s i)) s is = some (is.foldl f s) := by
  induction is generalizing s with
  | nil => rfl
  | cons i is ih => exact ih (f s i)

/-- What each step keeps under a condition only, a run keeps under that condition throughout. -/
theorem run_iff_throughout {Inv Q : σ → Prop} {C : σ → ι → Prop}
    (hinv : ∀ s i s', Inv s → step s i = some s' → Inv s')
    (hstep : ∀ s i s', Inv s → step s i = some s' → (Q s' ↔ Q s ∧ C s i))
    {s s' : σ} {is : List ι} (hs : Inv s) (h : run step s is = some s') :
    Q s' ↔ Q s ∧ Throughout step C s is := by
  induction is generalizing s with
  | nil =>
    cases h
    exact (and_iff_left trivial).symm
  | cons i is ih =>
    obtain ⟨m, hm, hrest⟩ := run_cons h
    have htail : Throughout step C s (i :: is) ↔ C s i ∧ Throughout step C m is := by
      constructor
      · rintro ⟨hc, ht⟩
        exact ⟨hc, ht m hm⟩
      · rintro ⟨hc, ht⟩
        refine ⟨hc, fun m' hm' => ?_⟩
        cases hm.symm.trans hm'
        exact ht
    rw [ih (hinv s i m hs hm) hrest, hstep s i m hs hm, htail, and_assoc]

/-- Two conditions that agree wherever the invariant holds are met by the same runs, here of
labels that are all in `A`; the invariant need only survive the steps that meet the second. -/
theorem throughout_congr {C D : σ → ι → Prop} {A : ι → Prop} (Inv : σ → Prop)
    (hstep : ∀ s i s', A i → Inv s → D s i → step s i = some s' → Inv s')
    (hcd : ∀ s i, A i → Inv s → (C s i ↔ D s i)) {s : σ} {is : List ι} (hA : ∀ i ∈ is, A i)
    (hs : Inv s) : Throughout step C s is ↔ Throughout step D s is := by
  induction is generalizing s with
  | nil => exact Iff.rfl
  | cons i is ih =>
    have hi : A i := hA i (List.mem_cons_self ..)
    have htail : ∀ j ∈ is, A j := fun j hj => hA j (List.mem_cons_of_mem _ hj)
    constructor
    · intro hc
      have hd := (hcd s i hi hs).mp hc.1
      exact ⟨hd, fun m hm => (ih htail (hstep s i m hi hs hd hm)).mp (hc.2 m hm)⟩
    · intro hd
      exact ⟨(hcd s i hi hs).mpr hd.1,
        fun m hm => (ih htail (hstep s i m hi hs hd.1 hm)).mpr (hd.2 m hm)⟩

/-- What holds now if it holds after the next step, held at the start of a run if it holds at the
end. -/
theorem run_back {G : σ → Prop} (hback : ∀ s i s', step s i = some s' → G s' → G s)
    {s s' : σ} {is : List ι} (h : run step s is = some s') (hs' : G s') : G s := by
  induction is generalizing s with
  | nil =>
    cases h
    exact hs'
  | cons i is ih =>
    obtain ⟨m, hm, hrest⟩ := run_cons h
    exact hback s i m hm (ih hrest)

/-- What one system does step by step, another one that is related to it can do as well; the steps
may use a condition that a state has as soon as a later one has it. -/
theorem run_simulates {τ : Type} {step' : τ → ι → Option τ} {R : σ → τ → Prop} {G : σ → Prop}
    (hback : ∀ s i s', step s i = some s' → G s' → G s)
    (hstep : ∀ s t i s', R s t → step s i = some s' → G s' → ∃ t', step' t i = some t' ∧ R s' t')
    {s s' : σ} {t : τ} {is : List ι} (hr : R s t) (h : run step s is = some s') (hs' : G s') :
    ∃ t', run step' t is = some t' ∧ R s' t' := by
  induction is generalizing s t with
  | nil =>
    cases h
    exact ⟨t, rfl, hr⟩
  | cons i is ih =>
    obtain ⟨m, hm, hrest⟩ := run_cons h
    obtain ⟨n, hn, hmn⟩ := hstep s t i m hr hm (run_back hback hrest hs')
    obtain ⟨t', ht', hr'⟩ := ih hmn hrest
    refine ⟨t', ?_, hr'⟩
    rw [run, hn, Option.bind_some]
    exact ht'

/-- What the other system meets throughout, read back. -/
theorem throughout_simulates {τ : Type} {step' : τ → ι → Option τ} {R : σ → τ → Prop}
    {G : σ → Prop} {C : σ → ι → Prop} {C' : τ → ι → Prop}
    (hback : ∀ s i s', step s i = some s' → G s' → G s)
    (hstep : ∀ s t i s', R s t → step s i = some s' → G s' → ∃ t', step' t i = some t' ∧ R s' t')
    (hC : ∀ s t i, R s t → C' t i → C s i) {s s' : σ} {t : τ} {is : List ι} (hr : R s t)
    (h : run step s is = some s') (hs' : G s') (ht : Throughout step' C' t is) :
    Throughout step C s is := by
  induction is generalizing s t with
  | nil => trivial
  | cons i is ih =>
    obtain ⟨m, hm, hrest⟩ := run_cons h
    obtain ⟨n, hn, hmn⟩ := hstep s t i m hr hm (run_back hback hrest hs')
    exact throughout_cons hm (hC s t i hr ht.1) (ih hmn hrest (ht.2 n hn))

end AuvMiddleware.Runs
