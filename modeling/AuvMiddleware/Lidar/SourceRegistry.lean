import AuvMiddleware.Lib.Runs
import AuvMiddleware.Lidar.SickSources
import Mathlib.Logic.Function.Basic

/-!
# Sources and the driver's callbacks (sick_scan_source.cpp:60-177, sick_cloud_source.cpp:45-146)

The driver calls back on threads of its own, with a handle and no user data, so each class looks
its sources up in a registry. Constructors, destructors and callbacks run side by side here, one
call of the driver's or one locked section at a time.
-/

namespace AuvMiddleware.Lidar
open Runs

/-! ### The driver -/

/-- The calls of the C API that take a handle, with how they went. -/
inductive ApiCall where
  | create
  | registerCallback (kind : SickKind) (ok : Bool)
  | initByLaunchfile (ok : Bool)
  | deregisterCallback
  | close
  | release

/-- What has been done with a handle. -/
inductive HandleState where
  | free
  | created
  | registered (kind : SickKind)
  | started (kind : SickKind)
  | deregistered
  | misused
  deriving DecidableEq

namespace HandleState

/-- Callbacks are taken back before a handle is closed, and what was started is closed before it is
released. -/
def next : HandleState → ApiCall → HandleState
  | free, .create => created
  | created, .registerCallback kind ok => if ok then registered kind else created
  | created, .release => free
  | registered kind, .initByLaunchfile ok => if ok then started kind else registered kind
  | registered _, .deregisterCallback => created
  | started _, .deregisterCallback => deregistered
  | deregistered, .close => created
  | _, _ => misused

/-- Whose `on_polar_cloud` the driver calls for the handle. -/
def callback : HandleState → Option SickKind
  | registered kind | started kind => some kind
  | _ => none

end HandleState

/-! ### Constructors and destructors -/

inductive Statement where
  | enterRegistry
  | registerCallback
  | initByLaunchfile
  | deregisterCallback
  | unregisterSelf
  | close
  | release
  deriving DecidableEq

/-- An `Impl`, with what its constructor or its destructor has left to do and what the constructor
is about to throw. -/
structure Impl (F : Type) where
  cfg : SickConfig
  handle : ℕ
  source : SickSource F
  callbackRegistered : Bool := false
  todo : List Statement := [.enterRegistry, .registerCallback, .initByLaunchfile]
  failure : Option Exn := none

/-- A call of `on_polar_cloud` on one of the driver's threads; `owner` is the `Impl` that held the
handle when the driver made it, `self` the one that was looked up. -/
structure PolarCall where
  handle : ℕ
  kind : SickKind
  msg : ScanMsg
  owner : ℕ
  self : Option ℕ := none

/-- The process. Every `Impl` has a number of its own for an address; a null handle is `none`. -/
structure SickProcess (F : Type) where
  built : ℕ := 0
  impls : ℕ → Option (Impl F) := fun _ => none
  registry : SickKind × ℕ → Option ℕ := fun _ => none
  driver : ℕ → HandleState := fun _ => .free
  creator : ℕ → ℕ := fun _ => 0
  calls : ℕ → Option PolarCall := fun _ => none
  thrown : List (ℕ × Exn) := []
  lost : List PolarCall := []
  strayed : List PolarCall := []
  delivered : List (ℕ × PolarCall) := []

namespace SickProcess

variable {F : Type}

def put (s : SickProcess F) (o : ℕ) (i : Option (Impl F)) : SickProcess F :=
  { s with impls := Function.update s.impls o i }

def enter (s : SickProcess F) (key : SickKind × ℕ) (o : Option ℕ) : SickProcess F :=
  { s with registry := Function.update s.registry key o }

def api (s : SickProcess F) (handle : ℕ) (call : ApiCall) : SickProcess F :=
  { s with driver := Function.update s.driver handle ((s.driver handle).next call) }

def setCall (s : SickProcess F) (t : ℕ) (call : Option PolarCall) : SickProcess F :=
  { s with calls := Function.update s.calls t call }

theorem enter_registry (s : SickProcess F) (key : SickKind × ℕ) (o : Option ℕ) :
    (s.enter key o).registry key = o :=
  Function.update_self ..

theorem api_driver (s : SickProcess F) (handle : ℕ) (call : ApiCall) :
    (s.api handle call).driver handle = (s.driver handle).next call :=
  Function.update_self ..

/-- The constructor up to `SickScanApiCreate`, which gives a handle nobody holds, or null. -/
def construct (s : SickProcess F) (cfg : SickConfig) (created : Option ℕ) :
    Option (SickProcess F) :=
  let s' := { s with built := s.built + 1 }
  match cfg.check, created with
  | .error e, _ => some { s' with thrown := s.thrown ++ [(s.built, e)] }
  | .ok _, none => some { s' with
      thrown := s.thrown ++
        [(s.built, .runtimeError (cfg.name ++ ": SickScanApiCreate returned null"))] }
  | .ok queueCapacity, some handle =>
    if s.driver handle = .free then
      some (({ s' with creator := Function.update s.creator handle s.built }.api handle
        .create).put s.built (some
          { cfg := cfg, handle := handle, source := .create queueCapacity cfg }))
    else none

/-- The next statement of a constructor or a destructor; `failed` is the code the driver returns
if it is not `SICK_SCAN_API_SUCCESS`. -/
def advance (s : SickProcess F) (o : ℕ) (failed : Option Int32) : Option (SickProcess F) :=
  match s.impls o with
  | none => none
  | some i =>
    let key := (i.cfg.kind, i.handle)
    match i.todo with
    | [] => none
    | .enterRegistry :: todo => some ((s.enter key (some o)).put o (some { i with todo := todo }))
    | .registerCallback :: todo =>
      match failed with
      | none => some ((s.api i.handle (.registerCallback i.cfg.kind true)).put o
          (some { i with todo := todo, callbackRegistered := true }))
      | some _ => some ((s.api i.handle (.registerCallback i.cfg.kind false)).put o
          (some { i with
            todo := [.unregisterSelf, .release]
            failure := some (.runtimeError
              (i.cfg.name ++ ": SickScanApiRegisterPolarPointCloudMsg failed")) }))
    | .initByLaunchfile :: todo =>
      match failed with
      | none => some ((s.api i.handle (.initByLaunchfile true)).put o
          (some { i with todo := todo }))
      | some rc => some ((s.api i.handle (.initByLaunchfile false)).put o
          (some { i with
            todo := [.deregisterCallback, .unregisterSelf, .release]
            failure := some (.runtimeError (i.cfg.name ++ ": SickScanApiInitByLaunchfile failed (rc="
              ++ toString rc ++ ") for args: " ++ i.cfg.launchArgs)) }))
    | .deregisterCallback :: todo =>
      -- the constructor takes its flag back, the destructor leaves it
      some ((s.api i.handle .deregisterCallback).put o
        (some { i with
          todo := todo, callbackRegistered := i.callbackRegistered && i.failure.isNone }))
    | .unregisterSelf :: todo => some ((s.enter key none).put o (some { i with todo := todo }))
    | .close :: todo => some ((s.api i.handle .close).put o (some { i with todo := todo }))
    | .release :: _ =>
      -- the last statement: the `Impl` goes, by the destructor or by the throw
      some (({ s with thrown := s.thrown ++ i.failure.toList.map fun e => (o, e) }.api i.handle
        .release).put o none)

/-- `~Impl`, of an object whose constructor has returned. -/
def destroy (s : SickProcess F) (o : ℕ) : Option (SickProcess F) :=
  match s.impls o with
  | none => none
  | some i =>
    match i.todo with
    | [] =>
      let todo := [.unregisterSelf, .close, .release]
      some (s.put o (some { i with
        todo := if i.callbackRegistered then .deregisterCallback :: todo else todo }))
    | _ :: _ => none

/-- The driver calls `on_polar_cloud` on its thread `t`; `none` is a null message. -/
def call (s : SickProcess F) (t handle : ℕ) (msg : Option ScanMsg) : Option (SickProcess F) :=
  match s.calls t, (s.driver handle).callback, msg with
  | none, some _, none => some s
  | none, some kind, some msg => some (s.setCall t (some
      { handle := handle, kind := kind, msg := msg, owner := s.creator handle }))
  | _, _, _ => none

/-- The locked lookup. -/
def lookup (s : SickProcess F) (t : ℕ) : Option (SickProcess F) :=
  match s.calls t with
  | none => none
  | some c =>
    match c.self with
    | some _ => none
    | none =>
      match s.registry (c.kind, c.handle) with
      | none => some ({ s with lost := s.lost ++ [c] }.setCall t none)
      | some o => some (s.setCall t (some { c with self := some o }))

/-- `self->enqueue(*msg)`, after the lock; the memory may be there or not. -/
def enqueue (A : FloatArith F) (s : SickProcess F) (t : ℕ) : Option (SickProcess F) :=
  match s.calls t with
  | none => none
  | some c =>
    match c.self with
    | none => none
    | some o =>
      match s.impls o with
      | none => some ({ s with strayed := s.strayed ++ [c] }.setCall t none)
      | some i => some (({ s with delivered := s.delivered ++ [(o, c)] }.setCall t none).put o
          (some { i with source := (i.source.enqueue A c.msg).2 }))

/-- `poll_scan` or `poll_cloud` through the pointer the constructor gave. -/
def poll (s : SickProcess F) (o : ℕ) : Option (SickProcess F) :=
  match s.impls o with
  | none => none
  | some i =>
    match i.todo with
    | [] => some (s.put o (some { i with source := i.source.poll }))
    | _ :: _ => none

end SickProcess

inductive SickStep where
  | construct (cfg : SickConfig) (created : Option ℕ)
  | advance (o : ℕ) (failed : Option Int32)
  | destroy (o : ℕ)
  | call (t handle : ℕ) (msg : Option ScanMsg)
  | lookup (t : ℕ)
  | enqueue (t : ℕ)
  | poll (o : ℕ)

def SickProcess.step {F : Type} (A : FloatArith F) (s : SickProcess F) :
    SickStep → Option (SickProcess F)
  | .construct cfg created => s.construct cfg created
  | .advance o failed => s.advance o failed
  | .destroy o => s.destroy o
  | .call t handle msg => s.call t handle msg
  | .lookup t => s.lookup t
  | .enqueue t => s.enqueue A t
  | .poll o => s.poll o

/-! ### Whose handle it is -/

/-- What the `Impl` with number `o` has in the registry and of the driver, by what it has left to
do. -/
inductive Stage (kind : SickKind) (o : ℕ) :
    List Statement → Bool → Option ℕ → HandleState → Prop where
  | created : Stage kind o [.enterRegistry, .registerCallback, .initByLaunchfile] false none .created
  | entered : Stage kind o [.registerCallback, .initByLaunchfile] false (some o) .created
  | registered : Stage kind o [.initByLaunchfile] true (some o) (.registered kind)
  | running : Stage kind o [] true (some o) (.started kind)
  | initFailed (flag : Bool) :
    Stage kind o [.deregisterCallback, .unregisterSelf, .release] flag (some o) (.registered kind)
  | unentering (flag : Bool) : Stage kind o [.unregisterSelf, .release] flag (some o) .created
  | destroying (flag : Bool) :
    Stage kind o [.deregisterCallback, .unregisterSelf, .close, .release] flag (some o)
      (.started kind)
  | deregistered (flag : Bool) :
    Stage kind o [.unregisterSelf, .close, .release] flag (some o) .deregistered
  | unregistered (flag : Bool) : Stage kind o [.close, .release] flag none .deregistered
  | releasing (flag : Bool) : Stage kind o [.release] flag none .created

structure RegistryInv {F : Type} (s : SickProcess F) : Prop where
  stage : ∀ o i, s.impls o = some i →
    Stage i.cfg.kind o i.todo i.callbackRegistered (s.registry (i.cfg.kind, i.handle))
      (s.driver i.handle)
  creator : ∀ o i, s.impls o = some i → s.creator i.handle = o
  below : ∀ o i, s.impls o = some i → o < s.built
  held : ∀ h, s.driver h ≠ .free → ∃ i, s.impls (s.creator h) = some i ∧ i.handle = h
  entry : ∀ kind h o, s.registry (kind, h) = some o →
    ∃ i, s.impls o = some i ∧ i.handle = h ∧ i.cfg.kind = kind
  thrown : ∀ e ∈ s.thrown, s.impls e.1 = none ∧ e.1 < s.built

section Stages

variable {kind : SickKind} {o : ℕ} {todo : List Statement} {flag : Bool} {entry : Option ℕ}
  {d : HandleState}

theorem Stage.in_use (h : Stage kind o todo flag entry d) : d ≠ .free ∧ d ≠ .misused := by
  cases h <;> simp

theorem Stage.entry_eq (h : Stage kind o todo flag entry d) : ∀ o' ∈ entry, o' = o := by
  cases h <;> simp [eq_comm]

theorem Stage.after_deregister (h : Stage kind o todo flag entry d)
    (hnext : todo.head? = some .deregisterCallback) :
    ∃ rest, todo = .deregisterCallback :: (rest ++ [.release]) ∧
      ∀ x ∈ rest, x = .unregisterSelf ∨ x = .close := by
  cases h with
  | initFailed => exact ⟨[.unregisterSelf], rfl, by simp⟩
  | destroying => exact ⟨[.unregisterSelf, .close], rfl, by simp⟩
  | created | entered | registered | running | unentering | deregistered | unregistered
    | releasing => cases hnext

theorem Stage.idle (h : Stage kind o [] flag entry d) :
    flag = true ∧ entry = some o ∧ d = .started kind := by
  cases h
  exact ⟨rfl, rfl, rfl⟩

theorem Stage.callback (h : Stage kind o todo flag entry d) {k : SickKind}
    (hd : d.callback = some k) : k = kind ∧ entry = some o := by
  cases h <;> cases hd <;> exact ⟨rfl, rfl⟩

end Stages

section Steps

variable {F : Type} {s s' : SickProcess F}

/-- One `Impl` goes on, and takes with it no more than its own entry and its own handle. -/
structure Moved (s : SickProcess F) (o : ℕ) (i i' : Impl F)
    (registry : SickKind × ℕ → Option ℕ) (driver : ℕ → HandleState) : Prop where
  handle : i'.handle = i.handle
  cfg : i'.cfg = i.cfg
  otherEntries : ∀ key, key ≠ (i.cfg.kind, i.handle) → registry key = s.registry key
  otherHandles : ∀ h, h ≠ i.handle → driver h = s.driver h
  stage : Stage i.cfg.kind o i'.todo i'.callbackRegistered (registry (i.cfg.kind, i.handle))
    (driver i.handle)
  callback : i.todo.head? ≠ some .deregisterCallback → ∀ kind,
    (s.driver i.handle).callback = some kind → (driver i.handle).callback = some kind

theorem RegistryInv.moved (hi : RegistryInv s) {o : ℕ} {i i' : Impl F} (ho : s.impls o = some i)
    {registry : SickKind × ℕ → Option ℕ} {driver : ℕ → HandleState}
    (hm : Moved s o i i' registry driver) :
    RegistryInv { s with
      impls := Function.update s.impls o (some i'), registry := registry, driver := driver } := by
  have hother (o' : ℕ) (j : Impl F) (hj : s.impls o' = some j) (hne : o' ≠ o) :
      j.handle ≠ i.handle := by
    intro heq
    exact hne ((hi.creator o' j hj).symm.trans (heq ▸ hi.creator o i ho))
  refine ⟨?_, ?_, ?_, ?_, ?_, ?_⟩
  · intro o' j hj
    dsimp only at hj ⊢
    by_cases hne : o' = o
    · subst hne
      rw [Function.update_self] at hj
      cases hj
      rw [hm.cfg, hm.handle]
      exact hm.stage
    · rw [Function.update_of_ne hne] at hj
      have hhandle := hother o' j hj hne
      rw [hm.otherEntries _ fun h => hhandle (congrArg Prod.snd h), hm.otherHandles _ hhandle]
      exact hi.stage o' j hj
  · intro o' j hj
    dsimp only at hj ⊢
    by_cases hne : o' = o
    · subst hne
      rw [Function.update_self] at hj
      cases hj
      rw [hm.handle]
      exact hi.creator o' i ho
    · rw [Function.update_of_ne hne] at hj
      exact hi.creator o' j hj
  · intro o' j hj
    dsimp only at hj ⊢
    by_cases hne : o' = o
    · subst hne
      exact hi.below o' i ho
    · rw [Function.update_of_ne hne] at hj
      exact hi.below o' j hj
  · intro h hh
    dsimp only at hh ⊢
    by_cases heq : h = i.handle
    · subst heq
      rw [hi.creator o i ho, Function.update_self]
      exact ⟨i', rfl, hm.handle⟩
    · rw [hm.otherHandles h heq] at hh
      obtain ⟨j, hj, hhandle⟩ := hi.held h hh
      have hne : s.creator h ≠ o := by
        intro heq'
        rw [heq', ho] at hj
        cases hj
        exact heq hhandle.symm
      rw [Function.update_of_ne hne]
      exact ⟨j, hj, hhandle⟩
  · intro kind h o' hentry
    dsimp only at hentry ⊢
    by_cases hkey : (kind, h) = (i.cfg.kind, i.handle)
    · cases hkey
      cases hm.stage.entry_eq o' hentry
      rw [Function.update_self]
      exact ⟨i', rfl, hm.handle, by rw [hm.cfg]⟩
    · rw [hm.otherEntries _ hkey] at hentry
      obtain ⟨j, hj, hhandle, hkind⟩ := hi.entry kind h o' hentry
      have hne : o' ≠ o := by
        rintro rfl
        rw [ho] at hj
        cases hj
        exact hkey (by rw [hhandle, hkind])
      rw [Function.update_of_ne hne]
      exact ⟨j, hj, hhandle, hkind⟩
  · intro e he
    dsimp only at he ⊢
    obtain ⟨hgone, hbelow⟩ := hi.thrown e he
    have hne : e.1 ≠ o := by
      intro heq
      rw [heq, ho] at hgone
      cases hgone
    rw [Function.update_of_ne hne]
    exact ⟨hgone, hbelow⟩

/-- What the next statement of an `Impl` can do: the `Impl` goes on, or it is gone. -/
theorem advance_cases (hi : RegistryInv s) {o : ℕ} {failed : Option Int32}
    (h : s.advance o failed = some s') :
    ∃ i, s.impls o = some i ∧
      ((∃ i' registry driver,
        s' = { s with
          impls := Function.update s.impls o (some i'), registry := registry
          driver := driver } ∧
        Moved s o i i' registry driver) ∨
      i.todo = [.release] ∧ s.registry (i.cfg.kind, i.handle) = none ∧
        s.driver i.handle = .created ∧
        s' = { s with
          impls := Function.update s.impls o none
          driver := Function.update s.driver i.handle .free
          thrown := s.thrown ++ i.failure.toList.map fun e => (o, e) }) := by
  unfold SickProcess.advance at h
  cases ho : s.impls o with
  | none => rw [ho] at h; cases h
  | some i =>
    rw [ho] at h
    refine ⟨i, rfl, ?_⟩
    have hstage := hi.stage o i ho
    generalize hentry : s.registry (i.cfg.kind, i.handle) = entry at hstage
    generalize hd : s.driver i.handle = d at hstage
    obtain ⟨cfg, handle, source, flag, todo, failure⟩ := i
    dsimp only at h hentry hd hstage
    have hentries (v : Option ℕ) (key : SickKind × ℕ) (hkey : key ≠ (cfg.kind, handle)) :
        (s.enter (cfg.kind, handle) v).registry key = s.registry key :=
      Function.update_of_ne hkey _ _
    have hhandles (call : ApiCall) (h' : ℕ) (hh : h' ≠ handle) :
        (s.api handle call).driver h' = s.driver h' := Function.update_of_ne hh _ _
    have hsame (key : SickKind × ℕ) (_ : key ≠ (cfg.kind, handle)) :
        s.registry key = s.registry key := rfl
    have hstill (h' : ℕ) (_ : h' ≠ handle) : s.driver h' = s.driver h' := rfl
    have hentered (v : Option ℕ) {todo : List Statement} {flag : Bool}
        (hst : Stage cfg.kind o todo flag v d) :
        Stage cfg.kind o todo flag ((s.enter (cfg.kind, handle) v).registry (cfg.kind, handle))
          (s.driver handle) := by
      rw [s.enter_registry, hd]
      exact hst
    have hcalled (call : ApiCall) {todo : List Statement} {flag : Bool}
        (hst : Stage cfg.kind o todo flag entry (d.next call)) :
        Stage cfg.kind o todo flag (s.registry (cfg.kind, handle))
          ((s.api handle call).driver handle) := by
      rw [s.api_driver, hentry, hd]
      exact hst
    have hkept (call : ApiCall)
        (hst : ∀ kind, d.callback = some kind → (d.next call).callback = some kind) (kind : SickKind)
        (hk : (s.driver handle).callback = some kind) :
        ((s.api handle call).driver handle).callback = some kind := by
      rw [s.api_driver, hd]
      rw [hd] at hk
      exact hst kind hk
    cases hstage with
    | created =>
      cases h
      exact .inl ⟨_, _, _, rfl, rfl, rfl, hentries _, hstill, hentered _ .entered, fun _ _ hk => hk⟩
    | entered =>
      have hnone (kind : SickKind) (d' : HandleState) :
          HandleState.created.callback = some kind → d'.callback = some kind := by
        intro hk
        cases hk
      cases failed with
      | none =>
        cases h
        exact .inl ⟨_, _, _, rfl, rfl, rfl, hsame, hhandles _, hcalled _ .registered,
          fun _ => hkept _ fun kind => hnone kind _⟩
      | some rc =>
        cases h
        exact .inl ⟨_, _, _, rfl, rfl, rfl, hsame, hhandles _, hcalled _ (.unentering _),
          fun _ => hkept _ fun kind => hnone kind _⟩
    | registered =>
      cases failed with
      | none =>
        cases h
        exact .inl ⟨_, _, _, rfl, rfl, rfl, hsame, hhandles _, hcalled _ .running,
          fun _ => hkept _ fun _ hk => hk⟩
      | some rc =>
        cases h
        exact .inl ⟨_, _, _, rfl, rfl, rfl, hsame, hhandles _, hcalled _ (.initFailed _),
          fun _ => hkept _ fun _ hk => hk⟩
    | running => cases h
    | initFailed =>
      cases h
      exact .inl ⟨_, _, _, rfl, rfl, rfl, hsame, hhandles _, hcalled _ (.unentering _),
        fun hne => absurd rfl hne⟩
    | unentering =>
      cases h
      exact .inl ⟨_, _, _, rfl, rfl, rfl, hentries _, hstill, hentered _ (.releasing _),
        fun _ _ hk => hk⟩
    | destroying =>
      cases h
      exact .inl ⟨_, _, _, rfl, rfl, rfl, hsame, hhandles _, hcalled _ (.deregistered _),
        fun hne => absurd rfl hne⟩
    | deregistered =>
      cases h
      exact .inl ⟨_, _, _, rfl, rfl, rfl, hentries _, hstill, hentered _ (.unregistered _),
        fun _ _ hk => hk⟩
    | unregistered =>
      cases h
      refine .inl ⟨_, _, _, rfl, rfl, rfl, hsame, hhandles _, hcalled _ (.releasing _),
        fun _ => hkept _ fun kind hk => ?_⟩
      cases hk
    | releasing =>
      cases h
      refine .inr ⟨rfl, rfl, rfl, ?_⟩
      simp only [SickProcess.put, SickProcess.api, hd]
      rfl

theorem RegistryInv.released (hi : RegistryInv s) {o : ℕ} {i : Impl F} (ho : s.impls o = some i)
    (hentry : s.registry (i.cfg.kind, i.handle) = none) (failure : Option Exn) :
    RegistryInv { s with
      impls := Function.update s.impls o none, driver := Function.update s.driver i.handle .free
      thrown := s.thrown ++ failure.toList.map fun e => (o, e) } := by
  have hold {o' : ℕ} {j : Impl F} (hj : Function.update s.impls o none o' = some j) :
      o' ≠ o ∧ s.impls o' = some j := by
    have hne : o' ≠ o := by
      rintro rfl
      rw [Function.update_self] at hj
      cases hj
    rw [Function.update_of_ne hne] at hj
    exact ⟨hne, hj⟩
  refine ⟨?_, ?_, ?_, ?_, ?_, ?_⟩
  · intro o' j hj
    obtain ⟨hne, hj⟩ := hold hj
    have hhandle : j.handle ≠ i.handle := by
      intro heq
      exact hne ((hi.creator o' j hj).symm.trans (heq ▸ hi.creator o i ho))
    dsimp only
    rw [Function.update_of_ne hhandle]
    exact hi.stage o' j hj
  · intro o' j hj
    exact hi.creator o' j (hold hj).2
  · intro o' j hj
    exact hi.below o' j (hold hj).2
  · intro h hh
    dsimp only at hh ⊢
    have hne : h ≠ i.handle := by
      rintro rfl
      rw [Function.update_self] at hh
      exact hh rfl
    rw [Function.update_of_ne hne] at hh
    obtain ⟨j, hj, hhandle⟩ := hi.held h hh
    have hother : s.creator h ≠ o := by
      intro heq
      rw [heq, ho] at hj
      cases hj
      exact hne hhandle.symm
    rw [Function.update_of_ne hother]
    exact ⟨j, hj, hhandle⟩
  · intro kind h o' he
    dsimp only at he ⊢
    obtain ⟨j, hj, hhandle, hkind⟩ := hi.entry kind h o' he
    have hne : o' ≠ o := by
      rintro rfl
      rw [ho] at hj
      cases hj
      rw [hhandle, hkind, he] at hentry
      cases hentry
    rw [Function.update_of_ne hne]
    exact ⟨j, hj, hhandle, hkind⟩
  · intro e he
    dsimp only at he ⊢
    rcases List.mem_append.mp he with he | he
    · obtain ⟨hgone, hbelow⟩ := hi.thrown e he
      refine ⟨?_, hbelow⟩
      by_cases hne : e.1 = o
      · rw [hne, Function.update_self]
      · rw [Function.update_of_ne hne]
        exact hgone
    · obtain ⟨x, -, rfl⟩ := List.mem_map.mp he
      exact ⟨Function.update_self .., hi.below o i ho⟩

/-- The source of a finished `Impl`, or what it has left to do, may change on its own. -/
theorem RegistryInv.replaced (hi : RegistryInv s) {o : ℕ} {i i' : Impl F} (ho : s.impls o = some i)
    (hhandle : i'.handle = i.handle) (hcfg : i'.cfg = i.cfg)
    (hstage : Stage i.cfg.kind o i'.todo i'.callbackRegistered
      (s.registry (i.cfg.kind, i.handle)) (s.driver i.handle)) :
    RegistryInv (s.put o (some i')) :=
  hi.moved ho ⟨hhandle, hcfg, fun _ _ => rfl, fun _ _ => rfl, hstage, fun _ _ hk => hk⟩

theorem RegistryInv.created (hi : RegistryInv s) {cfg : SickConfig} {handle : ℕ}
    (hfree : s.driver handle = .free) (source : SickSource F) :
    RegistryInv { s with
      built := s.built + 1
      impls := Function.update s.impls s.built
        (some { cfg := cfg, handle := handle, source := source })
      creator := Function.update s.creator handle s.built
      driver := Function.update s.driver handle .created } := by
  have hnobody {o : ℕ} {j : Impl F} (hj : s.impls o = some j) : j.handle ≠ handle := by
    rintro rfl
    exact (hi.stage o j hj).in_use.1 hfree
  have hnew {o : ℕ} {j : Impl F} (hj : s.impls o = some j) : o ≠ s.built := by
    have := hi.below o j hj
    omega
  have hunentered (kind : SickKind) : s.registry (kind, handle) = none := by
    cases hentry : s.registry (kind, handle) with
    | none => rfl
    | some o =>
      obtain ⟨j, hj, hhandle, -⟩ := hi.entry kind handle o hentry
      exact absurd hhandle (hnobody hj)
  refine ⟨?_, ?_, ?_, ?_, ?_, ?_⟩
  · intro o j hj
    dsimp only at hj ⊢
    by_cases hne : o = s.built
    · subst hne
      rw [Function.update_self] at hj
      cases hj
      rw [hunentered, Function.update_self]
      exact .created
    · rw [Function.update_of_ne hne] at hj
      rw [Function.update_of_ne (hnobody hj)]
      exact hi.stage o j hj
  · intro o j hj
    dsimp only at hj ⊢
    by_cases hne : o = s.built
    · subst hne
      rw [Function.update_self] at hj
      cases hj
      exact Function.update_self ..
    · rw [Function.update_of_ne hne] at hj
      rw [Function.update_of_ne (hnobody hj)]
      exact hi.creator o j hj
  · intro o j hj
    dsimp only at hj ⊢
    by_cases hne : o = s.built
    · omega
    · rw [Function.update_of_ne hne] at hj
      have := hi.below o j hj
      omega
  · intro h hh
    dsimp only at hh ⊢
    by_cases heq : h = handle
    · subst heq
      rw [Function.update_self, Function.update_self]
      exact ⟨_, rfl, rfl⟩
    · rw [Function.update_of_ne heq] at hh
      obtain ⟨j, hj, hhandle⟩ := hi.held h hh
      rw [Function.update_of_ne heq, Function.update_of_ne (hnew hj)]
      exact ⟨j, hj, hhandle⟩
  · intro kind h o he
    dsimp only at he ⊢
    obtain ⟨j, hj, hhandle, hkind⟩ := hi.entry kind h o he
    rw [Function.update_of_ne (hnew hj)]
    exact ⟨j, hj, hhandle, hkind⟩
  · intro e he
    dsimp only at he ⊢
    obtain ⟨hgone, hbelow⟩ := hi.thrown e he
    rw [Function.update_of_ne (by omega)]
    exact ⟨hgone, by omega⟩

theorem RegistryInv.refused (hi : RegistryInv s) (e : Exn) :
    RegistryInv { s with built := s.built + 1, thrown := s.thrown ++ [(s.built, e)] } := by
  refine ⟨hi.stage, hi.creator, ?_, hi.held, hi.entry, ?_⟩
  · intro o i ho
    exact Nat.lt_succ_of_lt (hi.below o i ho)
  · intro x hx
    dsimp only at hx ⊢
    rcases List.mem_append.mp hx with hx | hx
    · obtain ⟨hgone, hbelow⟩ := hi.thrown x hx
      exact ⟨hgone, Nat.lt_succ_of_lt hbelow⟩
    · cases List.mem_singleton.mp hx
      refine ⟨?_, Nat.lt_succ_self _⟩
      cases hnew : s.impls s.built with
      | none => rfl
      | some i => exact absurd (hi.below _ i hnew) (Nat.lt_irrefl _)

theorem construct_cases {cfg : SickConfig} {created : Option ℕ}
    (h : s.construct cfg created = some s') :
    (∃ e, s' = { s with built := s.built + 1, thrown := s.thrown ++ [(s.built, e)] }) ∨
    ∃ handle source, s.driver handle = .free ∧ s' = { s with
      built := s.built + 1
      impls := Function.update s.impls s.built
        (some { cfg := cfg, handle := handle, source := source })
      creator := Function.update s.creator handle s.built
      driver := Function.update s.driver handle .created } := by
  unfold SickProcess.construct at h
  cases hcheck : cfg.check with
  | error e =>
    rw [hcheck] at h
    cases h
    exact .inl ⟨e, rfl⟩
  | ok queueCapacity =>
    rw [hcheck] at h
    cases created with
    | none =>
      cases h
      exact .inl ⟨_, rfl⟩
    | some handle =>
      dsimp only at h
      split at h
      · case isTrue hfree =>
          cases h
          refine .inr ⟨handle, .create queueCapacity cfg, hfree, ?_⟩
          simp only [SickProcess.put, SickProcess.api, hfree]
          rfl
      · cases h

theorem destroy_cases (hi : RegistryInv s) {o : ℕ} (h : s.destroy o = some s') :
    ∃ i, s.impls o = some i ∧ i.todo = [] ∧ s' = s.put o (some { i with
      todo := [.deregisterCallback, .unregisterSelf, .close, .release] }) := by
  unfold SickProcess.destroy at h
  cases ho : s.impls o with
  | none => rw [ho] at h; cases h
  | some i =>
    rw [ho] at h
    have hstage := hi.stage o i ho
    obtain ⟨cfg, handle, source, flag, todo, failure⟩ := i
    cases todo with
    | cons => cases h
    | nil =>
      obtain ⟨rfl, -, -⟩ : flag = true ∧ _ := hstage.idle
      cases h
      exact ⟨_, rfl, rfl, rfl⟩

theorem lookup_cases {t : ℕ} (h : s.lookup t = some s') :
    ∃ c, s.calls t = some c ∧ c.self = none ∧
      ((s.registry (c.kind, c.handle) = none ∧
        s' = { s with lost := s.lost ++ [c] }.setCall t none) ∨
      ∃ o, s.registry (c.kind, c.handle) = some o ∧
        s' = s.setCall t (some { c with self := some o })) := by
  unfold SickProcess.lookup at h
  cases hc : s.calls t with
  | none => rw [hc] at h; cases h
  | some c =>
    rw [hc] at h
    cases hself : c.self with
    | some o => simp only [hself] at h; cases h
    | none =>
      refine ⟨c, rfl, hself, ?_⟩
      cases hentry : s.registry (c.kind, c.handle) with
      | none =>
        simp only [hself, hentry] at h
        cases h
        exact .inl ⟨rfl, rfl⟩
      | some o =>
        simp only [hself, hentry] at h
        cases h
        exact .inr ⟨o, rfl, rfl⟩

theorem enqueue_cases {A : FloatArith F} {t : ℕ} (h : s.enqueue A t = some s') :
    ∃ c o, s.calls t = some c ∧ c.self = some o ∧
      ((s.impls o = none ∧ s' = { s with strayed := s.strayed ++ [c] }.setCall t none) ∨
      ∃ i, s.impls o = some i ∧
        s' = ({ s with delivered := s.delivered ++ [(o, c)] }.setCall t none).put o
          (some { i with source := (i.source.enqueue A c.msg).2 })) := by
  unfold SickProcess.enqueue at h
  cases hc : s.calls t with
  | none => rw [hc] at h; cases h
  | some c =>
    rw [hc] at h
    cases hself : c.self with
    | none => simp only [hself] at h; cases h
    | some o =>
      refine ⟨c, o, rfl, hself, ?_⟩
      cases ho : s.impls o with
      | none =>
        simp only [hself, ho] at h
        cases h
        exact .inl ⟨rfl, rfl⟩
      | some i =>
        simp only [hself, ho] at h
        cases h
        exact .inr ⟨i, rfl, rfl⟩

theorem poll_cases {o : ℕ} (h : s.poll o = some s') :
    ∃ i, s.impls o = some i ∧ s' = s.put o (some { i with source := i.source.poll }) := by
  unfold SickProcess.poll at h
  cases ho : s.impls o with
  | none => rw [ho] at h; cases h
  | some i =>
    rw [ho] at h
    obtain ⟨cfg, handle, source, flag, todo, failure⟩ := i
    cases todo with
    | cons => cases h
    | nil =>
      cases h
      exact ⟨_, rfl, rfl⟩

theorem call_cases {t handle : ℕ} {msg : Option ScanMsg} (h : s.call t handle msg = some s') :
    s' = s ∨ ∃ kind m, (s.driver handle).callback = some kind ∧ s' = s.setCall t (some
      { handle := handle, kind := kind, msg := m, owner := s.creator handle }) := by
  unfold SickProcess.call at h
  cases hc : s.calls t with
  | some c => rw [hc] at h; cases h
  | none =>
    rw [hc] at h
    cases hkind : (s.driver handle).callback with
    | none => rw [hkind] at h; cases msg <;> cases h
    | some kind =>
      rw [hkind] at h
      cases msg with
      | none =>
        cases h
        exact .inl rfl
      | some m =>
        cases h
        exact .inr ⟨kind, m, rfl, rfl⟩

theorem registry_step_inv (A : FloatArith F) (s : SickProcess F) (i : SickStep)
    (s' : SickProcess F) (hi : RegistryInv s) (h : s.step A i = some s') : RegistryInv s' := by
  cases i with
  | construct cfg created =>
    obtain ⟨e, rfl⟩ | ⟨handle, source, hfree, rfl⟩ := construct_cases h
    · exact hi.refused e
    · exact hi.created hfree source
  | advance o failed =>
    obtain ⟨j, ho, ⟨j', registry, driver, rfl, hm⟩ | ⟨-, hentry, -, rfl⟩⟩ := advance_cases hi h
    · exact hi.moved ho hm
    · exact hi.released ho hentry j.failure
  | destroy o =>
    obtain ⟨j, ho, htodo, rfl⟩ := destroy_cases hi h
    have hstage := hi.stage o j ho
    rw [htodo] at hstage
    obtain ⟨-, hentry, hd⟩ := hstage.idle
    refine hi.replaced ho rfl rfl ?_
    rw [hentry, hd]
    exact .destroying _
  | call t handle msg =>
    obtain rfl | ⟨kind, m, -, rfl⟩ := call_cases h
    · exact hi
    · exact ⟨hi.stage, hi.creator, hi.below, hi.held, hi.entry, hi.thrown⟩
  | lookup t =>
    obtain ⟨c, -, -, ⟨-, rfl⟩ | ⟨o, -, rfl⟩⟩ := lookup_cases h
    · exact ⟨hi.stage, hi.creator, hi.below, hi.held, hi.entry, hi.thrown⟩
    · exact ⟨hi.stage, hi.creator, hi.below, hi.held, hi.entry, hi.thrown⟩
  | enqueue t =>
    obtain ⟨c, o, -, -, ⟨-, rfl⟩ | ⟨j, ho, rfl⟩⟩ := enqueue_cases h
    · exact ⟨hi.stage, hi.creator, hi.below, hi.held, hi.entry, hi.thrown⟩
    · have hj : RegistryInv (s.put o (some { j with source := (j.source.enqueue A c.msg).2 })) :=
        hi.replaced ho rfl rfl (hi.stage o j ho)
      exact ⟨hj.stage, hj.creator, hj.below, hj.held, hj.entry, hj.thrown⟩
  | poll o =>
    obtain ⟨j, ho, rfl⟩ := poll_cases h
    exact hi.replaced ho rfl rfl (hi.stage o j ho)

theorem registry_start_inv : RegistryInv ({} : SickProcess F) := by
  refine ⟨?_, ?_, ?_, ?_, ?_, ?_⟩
  · intro o i ho
    cases ho
  · intro o i ho
    cases ho
  · intro o i ho
    cases ho
  · intro h hh
    exact absurd rfl hh
  · intro kind h o he
    cases he
  · intro e he
    cases he

/-- `SickScanApiDeregisterPolarPointCloudMsg` returns when no call of the handle's is on its way:
what the destructor goes by. -/
def DeregisterWaits (s : SickProcess F) (i : SickStep) : Prop :=
  ∀ o failed, i = .advance o failed → ∀ j, s.impls o = some j →
    j.todo.head? = some .deregisterCallback → ∀ t c, s.calls t = some c → c.handle ≠ j.handle

theorem waits_of_ne {i : SickStep}
    (h : ∀ o failed, i ≠ .advance o failed) : DeregisterWaits s i := by
  intro o failed heq
  exact absurd heq (h o failed)

theorem waits_of_quiet {i : SickStep} (h : ∀ t, s.calls t = none) : DeregisterWaits s i := by
  intro o failed _ j _ _ t c ht
  rw [h t] at ht
  cases ht

theorem waits_of_head {o : ℕ} {failed : Option Int32} {j : Impl F} (ho : s.impls o = some j)
    (h : j.todo.head? ≠ some .deregisterCallback) : DeregisterWaits s (.advance o failed) := by
  intro o' failed' heq j' hj hhead
  cases heq
  cases ho.symm.trans hj
  exact absurd hhead h

structure CallsInv (s : SickProcess F) : Prop where
  owner : ∀ t c, s.calls t = some c → c.owner = s.creator c.handle
  callback : ∀ t c, s.calls t = some c → (s.driver c.handle).callback = some c.kind
  self : ∀ t c, s.calls t = some c → ∀ o ∈ c.self, o = c.owner
  lost : s.lost = []
  strayed : s.strayed = []
  delivered : ∀ e ∈ s.delivered, e.1 = e.2.owner

/-- The source that holds the handle of a call, which has it in the registry. -/
theorem CallsInv.source (hc : CallsInv s) (hi : RegistryInv s) {t : ℕ} {c : PolarCall}
    (h : s.calls t = some c) :
    ∃ i, s.impls c.owner = some i ∧ i.handle = c.handle ∧
      s.registry (c.kind, c.handle) = some c.owner := by
  have hcallback := hc.callback t c h
  have hused : s.driver c.handle ≠ .free := by
    intro hfree
    rw [hfree] at hcallback
    cases hcallback
  obtain ⟨i, ho, hhandle⟩ := hi.held c.handle hused
  rw [← hc.owner t c h] at ho
  have hstage := hi.stage _ i ho
  rw [hhandle] at hstage
  obtain ⟨hkind, hentry⟩ := hstage.callback hcallback
  refine ⟨i, ho, hhandle, ?_⟩
  rw [hkind]
  exact hentry

theorem CallsInv.setCall (hc : CallsInv s) (t : ℕ) {call : Option PolarCall}
    (hcall : ∀ c ∈ call, c.owner = s.creator c.handle ∧
      (s.driver c.handle).callback = some c.kind ∧ ∀ o ∈ c.self, o = c.owner) :
    CallsInv (s.setCall t call) := by
  have hcases (t' : ℕ) (c : PolarCall) (h : Function.update s.calls t call t' = some c) :
      c.owner = s.creator c.handle ∧ (s.driver c.handle).callback = some c.kind ∧
        ∀ o ∈ c.self, o = c.owner := by
    by_cases hne : t' = t
    · subst hne
      rw [Function.update_self] at h
      exact hcall c h
    · rw [Function.update_of_ne hne] at h
      exact ⟨hc.owner t' c h, hc.callback t' c h, hc.self t' c h⟩
  exact ⟨fun t' c h => (hcases t' c h).1, fun t' c h => (hcases t' c h).2.1,
    fun t' c h => (hcases t' c h).2.2, hc.lost, hc.strayed, hc.delivered⟩

theorem CallsInv.advanced (hc : CallsInv s) (hi : RegistryInv s) {o : ℕ} {failed : Option Int32}
    (hwaits : DeregisterWaits s (.advance o failed)) (h : s.advance o failed = some s') :
    CallsInv s' := by
  obtain ⟨i, ho, ⟨i', registry, driver, rfl, hm⟩ | ⟨-, hentry, hd, rfl⟩⟩ := advance_cases hi h
  · refine ⟨hc.owner, ?_, hc.self, hc.lost, hc.strayed, hc.delivered⟩
    intro t c ht
    have hcallback := hc.callback t c ht
    dsimp only
    by_cases hhandle : c.handle = i.handle
    · rw [hhandle] at hcallback ⊢
      refine hm.callback ?_ c.kind hcallback
      intro hhead
      exact hwaits o failed rfl i ho hhead t c ht hhandle
    · rw [hm.otherHandles _ hhandle]
      exact hcallback
  · refine ⟨hc.owner, ?_, hc.self, hc.lost, hc.strayed, hc.delivered⟩
    intro t c ht
    have hcallback := hc.callback t c ht
    have hhandle : c.handle ≠ i.handle := by
      intro heq
      rw [heq, hd] at hcallback
      cases hcallback
    dsimp only
    rw [Function.update_of_ne hhandle]
    exact hcallback

theorem calls_step_inv (A : FloatArith F) (s : SickProcess F) (i : SickStep)
    (s' : SickProcess F) (h : RegistryInv s ∧ CallsInv s) (hwaits : DeregisterWaits s i)
    (hstep : s.step A i = some s') : RegistryInv s' ∧ CallsInv s' := by
  obtain ⟨hi, hc⟩ := h
  refine ⟨registry_step_inv A s i s' hi hstep, ?_⟩
  cases i with
  | construct cfg created =>
    obtain ⟨e, rfl⟩ | ⟨handle, source, hfree, rfl⟩ := construct_cases hstep
    · exact ⟨hc.owner, hc.callback, hc.self, hc.lost, hc.strayed, hc.delivered⟩
    · have hother (t : ℕ) (c : PolarCall) (ht : s.calls t = some c) : c.handle ≠ handle := by
        intro heq
        have hcallback := hc.callback t c ht
        rw [heq, hfree] at hcallback
        cases hcallback
      refine ⟨?_, ?_, hc.self, hc.lost, hc.strayed, hc.delivered⟩
      · intro t c ht
        dsimp only
        rw [Function.update_of_ne (hother t c ht)]
        exact hc.owner t c ht
      · intro t c ht
        dsimp only
        rw [Function.update_of_ne (hother t c ht)]
        exact hc.callback t c ht
  | advance o failed => exact hc.advanced hi hwaits hstep
  | destroy o =>
    obtain ⟨j, -, -, rfl⟩ := destroy_cases hi hstep
    exact ⟨hc.owner, hc.callback, hc.self, hc.lost, hc.strayed, hc.delivered⟩
  | call t handle msg =>
    obtain rfl | ⟨kind, m, hkind, rfl⟩ := call_cases hstep
    · exact hc
    · apply hc.setCall
      intro c hcall
      cases hcall
      exact ⟨rfl, hkind, fun o ho => by cases ho⟩
  | lookup t =>
    obtain ⟨c, ht, -, ⟨hnone, -⟩ | ⟨o, ho, rfl⟩⟩ := lookup_cases hstep
    · obtain ⟨j, -, -, hentry⟩ := hc.source hi ht
      rw [hnone] at hentry
      cases hentry
    · apply hc.setCall
      intro c' hcall
      cases hcall
      refine ⟨hc.owner t c ht, hc.callback t c ht, ?_⟩
      intro o' ho'
      cases ho'
      obtain ⟨j, -, -, hentry⟩ := hc.source hi ht
      exact Option.some.inj (ho.symm.trans hentry)
  | enqueue t =>
    obtain ⟨c, o, ht, hself, ⟨hgone, -⟩ | ⟨j, ho, rfl⟩⟩ := enqueue_cases hstep
    · obtain ⟨j, hj, -, -⟩ := hc.source hi ht
      rw [← hc.self t c ht o hself, hgone] at hj
      cases hj
    · have hdone : CallsInv (s.setCall t none) := hc.setCall t fun _ h => by cases h
      refine ⟨hdone.owner, hdone.callback, hdone.self, hc.lost, hc.strayed, ?_⟩
      intro e he
      rcases List.mem_append.mp he with he | he
      · exact hc.delivered e he
      · cases List.mem_singleton.mp he
        exact hc.self t c ht o hself
  | poll o =>
    obtain ⟨j, -, rfl⟩ := poll_cases hstep
    exact ⟨hc.owner, hc.callback, hc.self, hc.lost, hc.strayed, hc.delivered⟩

theorem calls_start_inv : CallsInv ({} : SickProcess F) := by
  refine ⟨?_, ?_, ?_, rfl, rfl, ?_⟩
  · intro t c ht
    cases ht
  · intro t c ht
    cases ht
  · intro t c ht
    cases ht
  · intro e he
    cases he

end Steps

/-! ### A callback taken back too early -/

section Early

variable {F : Type} (A : FloatArith F)

/-- The statements after a Deregister, up to the last. -/
theorem undone (o : ℕ) {todo : List Statement}
    (htodo : ∀ x ∈ todo, x = .unregisterSelf ∨ x = .close) (s : SickProcess F) {i : Impl F}
    (ho : s.impls o = some i) (hi : i.todo = todo ++ [.release]) :
    ∃ s', run (SickProcess.step A) s (List.replicate (todo.length + 1) (.advance o none)) = some s' ∧
      Throughout (SickProcess.step A) DeregisterWaits s
        (List.replicate (todo.length + 1) (.advance o none)) ∧
      s'.impls o = none ∧ s'.calls = s.calls := by
  induction todo generalizing s i with
  | nil =>
    let last := ({ s with thrown := s.thrown ++ i.failure.toList.map fun e => (o, e) }.api i.handle
      .release).put o none
    have hstep : s.step A (.advance o none) = some last := by
      simp only [SickProcess.step, SickProcess.advance, ho, hi, List.nil_append, last]
    refine ⟨last, ?_, ?_, Function.update_self .., rfl⟩
    · rw [List.length_nil, List.replicate_one, run, hstep]
      rfl
    · exact throughout_cons hstep (waits_of_head ho (by simp [hi])) trivial
  | cons x todo ih =>
    obtain ⟨hx, htodo⟩ := List.forall_mem_cons.mp htodo
    have hstep : ∃ m, s.step A (.advance o none) = some m ∧
        m.impls o = some { i with todo := todo ++ [.release] } ∧ m.calls = s.calls := by
      let rest : Impl F := { i with todo := todo ++ [.release] }
      rcases hx with rfl | rfl
      · refine ⟨(s.enter (i.cfg.kind, i.handle) none).put o (some rest), ?_,
          Function.update_self .., rfl⟩
        simp only [SickProcess.step, SickProcess.advance, ho, hi, List.cons_append, rest]
      · refine ⟨(s.api i.handle .close).put o (some rest), ?_, Function.update_self .., rfl⟩
        simp only [SickProcess.step, SickProcess.advance, ho, hi, List.cons_append, rest]
    obtain ⟨m, hm, hm', hcalls⟩ := hstep
    obtain ⟨s', hrun, hwaits, hgone, hcalls'⟩ := ih htodo m hm' rfl
    refine ⟨s', ?_, ?_, hgone, hcalls'.trans hcalls⟩
    · rw [List.length_cons, List.replicate_succ, run, hm]
      exact hrun
    · refine throughout_cons hm (waits_of_head ho ?_) hwaits
      rw [hi]
      rcases hx with rfl | rfl <;> simp

/-- A call that has looked its source up goes astray once that source has run out. -/
theorem strays {s : SickProcess F} {t o : ℕ} {c : PolarCall} (hc : s.calls t = some c)
    (hself : c.self = some o) {i : Impl F} (ho : s.impls o = some i) {todo : List Statement}
    (htodo : ∀ x ∈ todo, x = .unregisterSelf ∨ x = .close) (hi : i.todo = todo ++ [.release]) :
    ∃ more s', run (SickProcess.step A) s more = some s' ∧
      Throughout (SickProcess.step A) DeregisterWaits s more ∧ s'.strayed ≠ [] := by
  obtain ⟨m, hrun, hwaits, hgone, hcalls⟩ := undone A o htodo s ho hi
  have hstep : m.step A (.enqueue t) =
      some ({ m with strayed := m.strayed ++ [c] }.setCall t none) := by
    simp only [SickProcess.step, SickProcess.enqueue, hcalls, hc, hself, hgone]
  refine ⟨List.replicate (todo.length + 1) (.advance o none) ++ [.enqueue t],
    { m with strayed := m.strayed ++ [c] }.setCall t none, ?_, ?_, ?_⟩
  · rw [run_append, hrun, Option.bind_some, run, hstep]
    rfl
  · exact throughout_append hrun hwaits (throughout_cons hstep (waits_of_ne (by simp)) trivial)
  · exact List.append_ne_nil_of_right_ne_nil _ (List.cons_ne_nil c [])

end Early

/-! ### Runs -/

/-- Whatever constructors, destructors and callbacks run side by side, and wherever the driver
fails: no handle is used out of order, each that is not free belongs to one `Impl`, a callback is
never registered without an entry to find, and a constructor that throws leaves nothing. -/
theorem sick_handles_in_order {F : Type} (A : FloatArith F) {steps : List SickStep}
    {s : SickProcess F} (h : run (SickProcess.step A) {} steps = some s) :
    (∀ handle, s.driver handle ≠ .misused) ∧
    (∀ handle, s.driver handle ≠ .free ↔ ∃ o i, s.impls o = some i ∧ i.handle = handle) ∧
    (∀ o o' i i', s.impls o = some i → s.impls o' = some i' → i.handle = i'.handle → o = o') ∧
    (∀ kind handle o, s.registry (kind, handle) = some o →
      ∃ i, s.impls o = some i ∧ i.handle = handle ∧ i.cfg.kind = kind) ∧
    (∀ handle kind, (s.driver handle).callback = some kind →
      s.registry (kind, handle) ≠ none) ∧
    ∀ e ∈ s.thrown, s.impls e.1 = none := by
  have hi := run_invariant (registry_step_inv A) registry_start_inv h
  have hheld (handle : ℕ) (hused : s.driver handle ≠ .free) :
      ∃ o i, s.impls o = some i ∧ i.handle = handle := by
    obtain ⟨i, ho, hhandle⟩ := hi.held handle hused
    exact ⟨_, i, ho, hhandle⟩
  refine ⟨?_, ?_, ?_, hi.entry, ?_, fun e he => (hi.thrown e he).1⟩
  · intro handle hmisused
    obtain ⟨o, i, ho, rfl⟩ := hheld handle (by simp [hmisused])
    exact (hi.stage o i ho).in_use.2 hmisused
  · intro handle
    constructor
    · exact hheld handle
    · rintro ⟨o, i, ho, rfl⟩
      exact (hi.stage o i ho).in_use.1
  · intro o o' i i' ho ho' heq
    rw [← hi.creator o i ho, ← hi.creator o' i' ho', heq]
  · intro handle kind hkind hnone
    have hused : s.driver handle ≠ .free := by
      intro hfree
      rw [hfree] at hkind
      cases hkind
    obtain ⟨o, i, ho, rfl⟩ := hheld handle hused
    obtain ⟨rfl, hentry⟩ := (hi.stage o i ho).callback hkind
    rw [hnone] at hentry
    cases hentry

def picoscan : SickConfig :=
  .scan { hostname := "10.0.0.2", udpReceiverIp := "10.0.0.1", launchFile := "sick_picoscan.launch" }

def blankMsg : ScanMsg where
  timestampSec := 1
  timestampNsec := 0
  width := 0
  height := 1
  pointStep := 4
  fields := []
  dataSize := 0
  buffer := none
  numEchos := 1

/-- A message comes in while the constructor is on its way, which then fails. -/
def earlyMessage : List SickStep :=
  [.construct picoscan (some 7), .advance 0 none, .advance 0 none, .call 3 7 (some blankMsg),
    .lookup 3, .enqueue 3, .advance 0 (some 5), .advance 0 none, .advance 0 none, .advance 0 none]

theorem earlyMessage_undone :
    ∃ s, run (SickProcess.step (exactArith floatValue)) {} earlyMessage = some s ∧
      s.driver 7 = .free ∧ s.registry (.scan, 7) = none ∧ s.thrown.map Prod.fst = [0] ∧
      ∀ o i, s.impls o = some i → i.handle ≠ 7 := by
  have hrun : ∃ s, run (SickProcess.step (exactArith floatValue)) {} earlyMessage = some s ∧
      s.driver 7 = .free ∧ s.registry (.scan, 7) = none ∧ s.thrown.map Prod.fst = [0] :=
    ⟨_, rfl, rfl, rfl, rfl⟩
  obtain ⟨s, hs, hfree, hentry, hthrown⟩ := hrun
  refine ⟨s, hs, hfree, hentry, hthrown, ?_⟩
  intro o i ho hhandle
  have hheld := (sick_handles_in_order (exactArith floatValue) hs).2.1 7
  exact hheld.mpr ⟨o, i, ho, hhandle⟩ hfree

/-- As long as the driver waits before it takes a callback back, no message is lost at the lookup,
none reaches a source that is gone, and each is delivered to the source whose sensor sent it. -/
theorem callbacks_reach_owner {F : Type} (A : FloatArith F) {steps : List SickStep}
    {s : SickProcess F} (hwaits : Throughout (SickProcess.step A) DeregisterWaits {} steps)
    (h : run (SickProcess.step A) {} steps = some s) :
    s.lost = [] ∧ s.strayed = [] ∧ ∀ e ∈ s.delivered, e.1 = e.2.owner := by
  have hi := run_invariant_of (calls_step_inv A) ⟨registry_start_inv, calls_start_inv⟩ hwaits h
  exact ⟨hi.2.lost, hi.2.strayed, hi.2.delivered⟩

theorem earlyMessage_delivered :
    ∃ s, run (SickProcess.step (exactArith floatValue)) {} earlyMessage = some s ∧
      s.delivered.length = 1 ∧ s.thrown.length = 1 ∧ s.lost = [] ∧ s.strayed = [] ∧
      ∀ e ∈ s.delivered, e.1 = e.2.owner := by
  have hrun : ∃ s, run (SickProcess.step (exactArith floatValue)) {} earlyMessage = some s ∧
      s.delivered.length = 1 ∧ s.thrown.length = 1 := ⟨_, rfl, rfl, rfl⟩
  obtain ⟨s, hs, hdelivered, hthrown⟩ := hrun
  refine ⟨s, hs, hdelivered, hthrown, callbacks_reach_owner (exactArith floatValue) ?_ hs⟩
  refine throughout_cons rfl (waits_of_ne (by simp)) ?_
  refine throughout_cons rfl (waits_of_head rfl (by simp)) ?_
  refine throughout_cons rfl (waits_of_head rfl (by simp)) ?_
  refine throughout_cons rfl (waits_of_ne (by simp)) ?_
  refine throughout_cons rfl (waits_of_ne (by simp)) ?_
  refine throughout_cons rfl (waits_of_ne (by simp)) ?_
  refine throughout_cons rfl (waits_of_head rfl (by simp)) ?_
  refine throughout_cons rfl (waits_of_quiet fun t => ?_) ?_
  · simp [SickProcess.setCall, SickProcess.put, SickProcess.api, SickProcess.enter]
  refine throughout_cons rfl (waits_of_head rfl (by simp)) ?_
  exact throughout_cons rfl (waits_of_head rfl (by simp)) trivial

/-- Whether Deregister may return now: only when no call for the handle is on its way, however the
driver keeps to its word from then on. -/
theorem deregister_safe_iff {F : Type} (A : FloatArith F) {steps : List SickStep}
    {s s' : SickProcess F} (hwaits : Throughout (SickProcess.step A) DeregisterWaits {} steps)
    (h : run (SickProcess.step A) {} steps = some s) {o : ℕ} {i : Impl F}
    (ho : s.impls o = some i) (hnext : i.todo.head? = some .deregisterCallback)
    {failed : Option Int32} (hstep : s.step A (.advance o failed) = some s') :
    (∀ more s'', run (SickProcess.step A) s' more = some s'' →
      Throughout (SickProcess.step A) DeregisterWaits s' more → s''.strayed = []) ↔
      ∀ t c, s.calls t = some c → c.handle ≠ i.handle := by
  have hinv := run_invariant_of (calls_step_inv A) ⟨registry_start_inv, calls_start_inv⟩ hwaits h
  obtain ⟨hi, hc⟩ := hinv
  constructor
  · intro hsafe t c ht hhandle
    obtain ⟨j, hj, hjhandle, hentry⟩ := hc.source hi ht
    have howner : c.owner = o := by
      rw [hc.owner t c ht, hhandle]
      exact hi.creator o i ho
    have hkind : c.kind = i.cfg.kind := by
      have hcallback := hc.callback t c ht
      rw [hhandle] at hcallback
      exact ((hi.stage o i ho).callback hcallback).1
    obtain ⟨todo, htodo, hall⟩ := (hi.stage o i ho).after_deregister hnext
    have hs' : s' = (s.api i.handle .deregisterCallback).put o (some { i with
        todo := todo ++ [.release]
        callbackRegistered := i.callbackRegistered && i.failure.isNone }) := by
      simp only [SickProcess.step, SickProcess.advance, ho, htodo] at hstep
      exact (Option.some.inj hstep).symm
    have ho' : s'.impls o = some { i with
        todo := todo ++ [.release]
        callbackRegistered := i.callbackRegistered && i.failure.isNone } := by
      rw [hs']
      exact Function.update_self ..
    have ht' : s'.calls t = some c := by
      rw [hs']
      exact ht
    cases hself : c.self with
    | some o' =>
      have hself' : c.self = some o := by
        rw [hself, hc.self t c ht o' hself, howner]
      obtain ⟨more, s'', hrun, hmore, hstrayed⟩ := strays A ht' hself' ho' hall rfl
      exact hstrayed (hsafe more s'' hrun hmore)
    | none =>
      have hlookup : s'.step A (.lookup t) = some (s'.setCall t (some { c with self := some o })) := by
        have hentry' : s'.registry (c.kind, c.handle) = some o := by
          rw [hs', ← howner]
          exact hentry
        simp only [SickProcess.step, SickProcess.lookup, ht', hself, hentry']
      have hfound : (s'.setCall t (some { c with self := some o })).calls t =
          some { c with self := some o } := Function.update_self ..
      obtain ⟨more, s'', hrun, hmore, hstrayed⟩ := strays A hfound rfl ho' hall rfl
      refine hstrayed (hsafe (.lookup t :: more) s'' ?_
        (throughout_cons hlookup (waits_of_ne (by simp)) hmore))
      rw [run, hlookup]
      exact hrun
  · intro hquiet more s'' hrun hmore
    have hnow : DeregisterWaits s (.advance o failed) := by
      intro o' failed' heq j hj _
      cases heq
      cases ho.symm.trans hj
      exact hquiet
    have hinv := calls_step_inv A s _ s' ⟨hi, hc⟩ hnow hstep
    exact (run_invariant_of (calls_step_inv A) hinv hmore hrun).2.strayed

/-- A destructor begins while a call has its source in hand. -/
def lateDestroy : List SickStep :=
  [.construct picoscan (some 7), .advance 0 none, .advance 0 none, .advance 0 none,
    .call 3 7 (some blankMsg), .lookup 3, .destroy 0]

theorem lateDestroy_unsafe :
    ∃ s s', run (SickProcess.step (exactArith floatValue)) {} lateDestroy = some s ∧
      s.step (exactArith floatValue) (.advance 0 none) = some s' ∧
      ∃ more s'', run (SickProcess.step (exactArith floatValue)) s' more = some s'' ∧
        s''.strayed ≠ [] := by
  have hrun : ∃ s s' i c, run (SickProcess.step (exactArith floatValue)) {} lateDestroy = some s ∧
      s.step (exactArith floatValue) (.advance 0 none) = some s' ∧ s.impls 0 = some i ∧
      i.todo.head? = some .deregisterCallback ∧ s.calls 3 = some c ∧ c.handle = i.handle :=
    ⟨_, _, _, _, rfl, rfl, rfl, rfl, rfl, rfl⟩
  obtain ⟨s, s', i, c, hs, hstep, ho, hnext, hc, hhandle⟩ := hrun
  refine ⟨s, s', hs, hstep, ?_⟩
  by_contra hsafe
  push Not at hsafe
  have hwaits : Throughout (SickProcess.step (exactArith floatValue)) DeregisterWaits {}
      lateDestroy := by
    refine throughout_cons rfl (waits_of_ne (by simp)) ?_
    refine throughout_cons rfl (waits_of_head rfl (by simp)) ?_
    refine throughout_cons rfl (waits_of_head rfl (by simp)) ?_
    refine throughout_cons rfl (waits_of_head rfl (by simp)) ?_
    refine throughout_cons rfl (waits_of_ne (by simp)) ?_
    refine throughout_cons rfl (waits_of_ne (by simp)) ?_
    exact throughout_cons rfl (waits_of_ne (by simp)) trivial
  have hquiet := (deregister_safe_iff (exactArith floatValue) hwaits hs ho hnext hstep).mp
    fun more s'' hrun _ => hsafe more s'' hrun
  exact hquiet 3 c hc hhandle

end AuvMiddleware.Lidar
