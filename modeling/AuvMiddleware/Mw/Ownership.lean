import AuvMiddleware.Mw.Unwinding
import Mathlib.Logic.Function.Basic

/-!
# Who owns an executor's nodes (executor.cpp:61-71)

An `Executor` object owns an `Impl` through a `std::unique_ptr`. A move hands the `Impl` over and
leaves nothing behind; the destructor stops the nodes, but a move assignment deletes what the
object owned before as it is.
-/

namespace AuvMiddleware.Mw
open Runs

/-- The `Executor` objects of a program by name, each with what its `impl_` points to, if anything,
and the Impls deleted so far, as they were then. -/
structure Objects where
  impl : ℕ → Option (Option Executor) := fun _ => none
  deleted : List Executor := []

namespace Objects

def put (s : Objects) (h : ℕ) (object : Option (Option Executor)) : Objects :=
  { s with impl := Function.update s.impl h object }

def delete (s : Objects) (p : Option Executor) : Objects :=
  { s with deleted := s.deleted ++ p.toList }

theorem put_impl_self (s : Objects) (h : ℕ) (object : Option (Option Executor)) :
    (s.put h object).impl h = object := by
  show Function.update s.impl h object h = object
  rw [Function.update_self]

theorem put_impl_of_ne {s : Objects} {h k : ℕ} (hk : k ≠ h) (object : Option (Option Executor)) :
    (s.put h object).impl k = s.impl k := by
  show Function.update s.impl h object k = s.impl k
  rw [Function.update_of_ne hk]

end Objects

inductive ObjectStep where
  | construct (h : ℕ) (periodNs : Int64)
  | call (h : ℕ) (i : ExecStep)
  | moveConstruct (dst src : ℕ)
  | moveAssign (dst src : ℕ)
  | destroy (h : ℕ)

/-- One statement of the program; `none` where it names an object that is not there, or makes a
lifecycle call through a null `impl_`. -/
def objectStep (s : Objects) : ObjectStep → Option Objects
  | .construct h periodNs =>
    match s.impl h, newExecutor periodNs with
    | none, .ok e => some (s.put h (some (some e)))
    | none, .error _ => some s
    | some _, _ => none
  | .call h i =>
    match s.impl h with
    | some (some e) => some (s.put h (some (some (execCall i e).2)))
    | _ => none
  | .moveConstruct dst src =>
    match s.impl dst, s.impl src with
    | none, some p => some ((s.put src (some none)).put dst (some p))
    | _, _ => none
  | .moveAssign dst src =>
    match s.impl dst, s.impl src with
    | some old, some p =>
      if dst = src then some s
      else some (((s.delete old).put src (some none)).put dst (some p))
    | _, _ => none
  | .destroy h =>
    match s.impl h with
    | some p => some ((s.delete (p.map stopAll)).put h none)
    | none => none

/-! ### What is deleted -/

/-- Every start of a node of a deleted executor has had its stop, in reverse order of add. -/
def DeletedStopped (s : Objects) : Prop := ∀ e ∈ s.deleted, unwind [] e.trace = some []

/-- A move assignment is not made over an executor that runs nodes, and no start throws what
start_all does not catch. -/
def OverwritesIdle (s : Objects) (i : ObjectStep) : Prop :=
  match i with
  | .call h c => ∀ p ∈ s.impl h, ∀ e ∈ p, CaughtUnlessFirst e c
  | .moveAssign dst src =>
    dst = src ∨ ∀ p ∈ s.impl dst, ∀ e ∈ p, e.phase = .running → e.slots = []
  | _ => True

instance decidableOverwrites (s : Objects) : ∀ i, Decidable (OverwritesIdle s i)
  | .call h c => inferInstanceAs (Decidable (∀ p ∈ s.impl h, ∀ e ∈ p, CaughtUnlessFirst e c))
  | .moveAssign dst src => inferInstanceAs (Decidable
      (dst = src ∨ ∀ p ∈ s.impl dst, ∀ e ∈ p, e.phase = .running → e.slots = []))
  | .construct _ _ => isTrue trivial
  | .moveConstruct _ _ => isTrue trivial
  | .destroy _ => isTrue trivial

structure ObjectsInv (s : Objects) : Prop where
  owned : ∀ h, ∀ p ∈ s.impl h, ∀ e ∈ p, UnwindInv e
  deleted : DeletedStopped s

namespace ObjectsInv

variable {s : Objects}

theorem put (hs : ObjectsInv s) (h : ℕ) {object : Option (Option Executor)}
    (ho : ∀ p ∈ object, ∀ e ∈ p, UnwindInv e) : ObjectsInv (s.put h object) := by
  refine ⟨?_, hs.deleted⟩
  intro k p hp e he
  by_cases hk : k = h
  · subst hk
    rw [Objects.put_impl_self] at hp
    exact ho p hp e he
  · rw [Objects.put_impl_of_ne hk] at hp
    exact hs.owned k p hp e he

theorem put_some (hs : ObjectsInv s) (h : ℕ) {p : Option Executor}
    (hp : ∀ e ∈ p, UnwindInv e) : ObjectsInv (s.put h (some p)) := by
  apply hs.put
  intro q hq
  cases hq
  exact hp

/-- Both moves: the source is left without an executor. -/
theorem moved (hs : ObjectsInv s) (dst src : ℕ) {p : Option Executor}
    (hp : ∀ e ∈ p, UnwindInv e) : ObjectsInv ((s.put src (some none)).put dst (some p)) := by
  have hnull : ∀ e ∈ (none : Option Executor), UnwindInv e := fun _ he => by cases he
  exact (hs.put_some src hnull).put_some dst hp

theorem delete (hs : ObjectsInv s) {p : Option Executor}
    (hp : ∀ e ∈ p, unwind [] e.trace = some []) : ObjectsInv (s.delete p) := by
  refine ⟨hs.owned, ?_⟩
  intro e he
  rcases List.mem_append.mp he with he | he
  · exact hs.deleted e he
  · exact hp e (Option.mem_toList.mp he)

end ObjectsInv

theorem unwindInv_newExecutor {periodNs : Int64} {e : Executor}
    (h : newExecutor periodNs = .ok e) : UnwindInv e := by
  unfold newExecutor at h
  split at h
  · cases h
  · cases h
    exact unwindInv_new periodNs

theorem stopAll_phase (e : Executor) : (stopAll e).phase = .stopped := by
  unfold stopAll
  split <;> rfl

theorem UnwindInv.stopAll_unwind {e : Executor} (h : UnwindInv e) :
    unwind [] (stopAll e).trace = some [] :=
  ((execCall_does e .stopAll).unwindInv h trivial).idle_of (stopAll_phase e) Phase.noConfusion

theorem UnwindInv.unwind_of_idle {e : Executor} (h : UnwindInv e)
    (hidle : e.phase = .running → e.slots = []) : unwind [] e.trace = some [] := by
  by_cases hp : e.phase = .running
  · rw [h.running hp, hidle hp]
    rfl
  · exact h.idle hp

theorem objectStep_inv (s : Objects) (i : ObjectStep) (s' : Objects) (hs : ObjectsInv s)
    (hc : OverwritesIdle s i) (h : objectStep s i = some s') : ObjectsInv s' := by
  cases i with
  | construct k periodNs =>
    simp only [objectStep] at h
    split at h
    · rename_i e _ hnew
      cases h
      apply hs.put_some
      intro e' he
      cases he
      exact unwindInv_newExecutor hnew
    · cases h
      exact hs
    · cases h
  | call k c =>
    simp only [objectStep] at h
    split at h
    · rename_i e hk
      cases h
      apply hs.put_some
      intro e' he
      cases he
      exact (execCall_does e c).unwindInv (hs.owned k _ hk e rfl) (hc _ hk e rfl)
    · cases h
  | moveConstruct dst src =>
    simp only [objectStep] at h
    split at h
    · rename_i p _ hsrc
      cases h
      exact hs.moved dst src (hs.owned src p hsrc)
    · cases h
  | moveAssign dst src =>
    simp only [objectStep] at h
    split at h
    · rename_i old p hdst hsrc
      split at h
      · cases h
        exact hs
      · rename_i hne
        cases h
        have hold : ∀ e ∈ old, unwind [] e.trace = some [] := by
          intro e he
          have hidle := (hc.resolve_left hne) old hdst e he
          exact (hs.owned dst old hdst e he).unwind_of_idle hidle
        exact (hs.delete hold).moved dst src (hs.owned src p hsrc)
    · cases h
  | destroy k =>
    simp only [objectStep] at h
    split at h
    · rename_i p hk
      cases h
      have hstopped : ∀ e ∈ p.map stopAll, unwind [] e.trace = some [] := by
        intro e' he'
        obtain ⟨e, he, rfl⟩ := Option.map_eq_some_iff.mp he'
        exact (hs.owned k p hk e he).stopAll_unwind
      apply (hs.delete hstopped).put
      intro q hq
      cases hq
    · cases h

/-- Executors are deleted with their nodes stopped in every run that assigns over none that runs
nodes, and whose starts fail in ways that start_all unwinds. -/
theorem deleted_stopped {steps : List ObjectStep} {s : Objects}
    (hc : Throughout objectStep OverwritesIdle {} steps) (h : run objectStep {} steps = some s) :
    DeletedStopped s := by
  have hnew : ObjectsInv {} := by
    refine ⟨?_, ?_⟩
    · intro k p hp
      cases hp
    · intro e he
      cases he
  exact (run_invariant_of objectStep_inv hnew hc h).deleted

def handOver : List ObjectStep :=
  [.construct 0 5, .call 0 (.add 7 { name := "a" }), .call 0 (.configureAll fun _ => none),
    .call 0 (.startAll fun _ => none), .moveConstruct 1 0, .construct 2 5, .moveAssign 0 2,
    .destroy 1]

theorem deleted_stopped_handOver :
    ∃ s, run objectStep {} handOver = some s ∧ s.deleted.length = 1 ∧ DeletedStopped s := by
  have hrun : ∃ s, run objectStep {} handOver = some s ∧ s.deleted.length = 1 := ⟨_, rfl, by decide⟩
  obtain ⟨s, hs, hlen⟩ := hrun
  exact ⟨s, hs, hlen, deleted_stopped (by decide) hs⟩

def overwrite : List ObjectStep :=
  [.construct 0 5, .call 0 (.add 7 { name := "a" }), .call 0 (.configureAll fun _ => none),
    .call 0 (.startAll fun _ => none), .construct 1 5, .moveAssign 0 1]

theorem deleted_running :
    ∃ s, run objectStep {} overwrite = some s ∧
      (s.deleted.map fun e => unwind [] e.trace) = [some [7]] ∧ ¬ DeletedStopped s := by
  have hrun : ∃ s, run objectStep {} overwrite = some s ∧
      (s.deleted.map fun e => unwind [] e.trace) = [some [7]] := ⟨_, rfl, by decide⟩
  obtain ⟨s, hs, hleft⟩ := hrun
  refine ⟨s, hs, hleft, ?_⟩
  intro h
  have hall : ∀ st ∈ s.deleted.map fun e => unwind [] e.trace, st = some [] := by
    intro st hst
    obtain ⟨e, he, rfl⟩ := List.mem_map.mp hst
    exact h e he
  rw [hleft] at hall
  exact absurd (hall _ (List.mem_singleton_self _)) (by decide)

end AuvMiddleware.Mw
