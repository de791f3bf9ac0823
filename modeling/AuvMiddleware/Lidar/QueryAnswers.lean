import AuvMiddleware.Lib.Runs
import AuvMiddleware.Lidar.QueryServer
import AuvMiddleware.Lidar.WireFormat

/-!
# What an answer takes

For each command the rows it reads and the `sqlite3_step` calls it makes, as functions of the
state before the call. A reader call throws exactly when one of these steps fails or one of these
rows does not decode, and `handle` lets the exception through.
-/

namespace AuvMiddleware.Lidar
open Runs Mw

/-! ### Outcomes -/

structure Outcome where
  scans : Option (List Scan)
  steps : ℕ

def rangeOutcome (P : Protobuf) (start stop : Int64) (log : Bytes) (t : Table) : Outcome :=
  ⟨decodeRows P log (t.inRange start stop), (t.inRange start stop).length + 1⟩

/-- An answer that starts from the newest scan: nothing from an empty table, else two counts and a
`get()` before what comes `next`. -/
def newestOutcome (P : Protobuf) (log : Bytes) (t : Table) (next : Scan → Outcome) : Outcome :=
  if t.count = 0 then ⟨some [], 1⟩
  else
    match scanAt P log t (t.count - 1) with
    | none => ⟨none, 4⟩
    | some newest => ⟨(next newest).scans, 4 + (next newest).steps⟩

def latestOutcome (P : Protobuf) (log : Bytes) (t : Table) : Outcome :=
  newestOutcome P log t fun newest => ⟨some [newest], 0⟩

def recentOutcome (P : Protobuf) (windowNs : Int64) (log : Bytes) (t : Table) : Outcome :=
  newestOutcome P log t fun newest =>
    rangeOutcome P (newest.stampNs - windowNs) newest.stampNs log t

def outcome (P : Protobuf) (command : Bytes) (st : ReaderState) : Outcome :=
  if command = kLatest then latestOutcome P st.env.log (st.sees .count)
  else
    match parseRange command with
    | some (startNs, endNs) => rangeOutcome P startNs endNs st.env.log (st.sees .range)
    | none =>
      match parseRecent command with
      | some windowNs => recentOutcome P windowNs st.env.log (st.sees .count)
      | none => ⟨some [], 0⟩

/-- The call returns exactly when the steps of the outcome succeed and its rows decode, and then
returns the scans of the outcome. -/
structure Computes (call : Call Exn ReaderState (List Scan)) (o : Outcome) (st : ReaderState) :
    Prop where
  returns : ∀ {scans}, st.env.FaultFree o.steps → o.scans = some scans →
    ∃ st', call st = (.ok scans, st') ∧ st'.Healthy
  only : ∀ {scans st'}, call st = (.ok scans, st') →
    st.env.FaultFree o.steps ∧ o.scans = some scans

theorem count_eq_ok {n : ℕ} {st st' : ReaderState} (h : count st = (.ok n, st')) :
    st.env.FaultFree 1 ∧ n = (st.sees .count).count ∧ st' = st.counted := by
  by_cases h1 : st.env.FaultFree 1
  · rw [count_ok st h1] at h
    cases h
    exact ⟨h1, rfl, rfl⟩
  · obtain ⟨e, m, hm⟩ := count_fault h1
    rw [hm] at h
    cases h

section Last

variable {P : Protobuf} {scan : Scan} {st st' : ReaderState}

theorem getLast_ok (hst : st.Healthy) (hf : st.env.FaultFree 3)
    (hn : 0 < (st.sees .count).count)
    (hd : scanAt P st.env.log (st.sees .count) ((st.sees .count).count - 1) = some scan) :
    ∃ st', getLast P st = (.ok scan, st') ∧ st'.Healthy ∧ st'.env = st.env.later 3 ∧
      st'.sees .range = st.sees .count := by
  obtain ⟨h1, h2⟩ := (ReadEnv.faultFree_add 1 2 st.env).mp hf
  have hc := st.counted_sees_count
  have hlt : (st.sees .count).count - 1 < (st.counted.sees .count).count := by
    rw [hc]
    omega
  obtain ⟨st', hget, hh, henv, hr⟩ := get_ok _ st.counted hst
    (by rw [st.counted_env]; exact h2) hlt (by rw [hc]; exact hd)
  refine ⟨st', ?_, hh, ?_, hr.trans hc⟩
  · unfold getLast
    rw [Call.bind_of_ok (count_ok st h1), hget]
  · rw [henv, st.counted_env, ReadEnv.later_later]

theorem getLast_eq_ok (h : getLast P st = (.ok scan, st')) :
    st.env.FaultFree 3 ∧
      scanAt P st.env.log (st.sees .count) ((st.sees .count).count - 1) = some scan := by
  obtain ⟨n, m, hcount, hget⟩ := Call.bind_eq_ok h
  obtain ⟨h1, rfl, rfl⟩ := count_eq_ok hcount
  obtain ⟨h2, -, hd⟩ := get_eq_ok hget
  rw [st.counted_env] at h2
  rw [st.counted_sees_count] at hd
  exact ⟨(ReadEnv.faultFree_add 1 2 st.env).mpr ⟨h1, h2⟩, hd⟩

end Last

/-! ### Every command computes its outcome -/

theorem computes_pure (scans : List Scan) {st : ReaderState} (hst : st.Healthy) :
    Computes (pure scans) ⟨some scans, 0⟩ st := by
  constructor
  · intro scans' _ hs
    cases hs
    exact ⟨st, rfl, hst⟩
  · intro scans' st' h
    cases h
    exact ⟨ReadEnv.faultFree_zero _, rfl⟩

theorem computes_range (P : Protobuf) (start stop : Int64) {st : ReaderState} (hst : st.Healthy) :
    Computes (findByTimeRange P start stop)
      (rangeOutcome P start stop st.env.log (st.sees .range)) st := by
  constructor
  · intro scans hf hs
    obtain ⟨st', hfind, hh, -⟩ := findByTimeRange_ok st hst hf hs
    exact ⟨st', hfind, hh⟩
  · intro scans st' h
    exact findByTimeRange_eq_ok h

/-- A first part of `k` steps that comes to what is `found`, and the call that goes on from it. -/
theorem Computes.bind {α : Type} {c : Call Exn ReaderState α} {k : ℕ} {found : Option α}
    {f : α → Call Exn ReaderState (List Scan)} {next : α → Outcome} {st : ReaderState}
    (hreturns : ∀ a, st.env.FaultFree k → found = some a →
      ∃ m, c st = (.ok a, m) ∧ m.env = st.env.later k ∧ Computes (f a) (next a) m)
    (honly : ∀ a m, c st = (.ok a, m) → st.env.FaultFree k ∧ found = some a) :
    Computes (c >>= f)
      (found.elim ⟨none, k⟩ fun a => ⟨(next a).scans, k + (next a).steps⟩) st := by
  constructor
  · intro scans hf hs
    cases found with
    | none => cases hs
    | some a =>
      obtain ⟨hk, hrest⟩ := (ReadEnv.faultFree_add k _ st.env).mp hf
      obtain ⟨m, hm, henv, hcomp⟩ := hreturns a hk rfl
      obtain ⟨st', hg, hh⟩ := hcomp.returns (by rw [henv]; exact hrest) hs
      exact ⟨st', (Call.bind_of_ok hm f).trans hg, hh⟩
  · intro scans st' h
    obtain ⟨a, m, hm, h⟩ := Call.bind_eq_ok h
    obtain ⟨hk, rfl⟩ := honly a m hm
    obtain ⟨m', hm', henv, hcomp⟩ := hreturns a hk rfl
    cases hm.symm.trans hm'
    obtain ⟨hrest, hs⟩ := hcomp.only h
    rw [henv] at hrest
    exact ⟨(ReadEnv.faultFree_add k _ st.env).mpr ⟨hk, hrest⟩, hs⟩

theorem computes_count {f : ℕ → Call Exn ReaderState (List Scan)} {o : Outcome} {st : ReaderState}
    (h : Computes (f (st.sees .count).count) o st.counted) :
    Computes (count >>= f) ⟨o.scans, 1 + o.steps⟩ st := by
  have hreturns : ∀ n, st.env.FaultFree 1 → some (st.sees .count).count = some n →
      ∃ m, count st = (.ok n, m) ∧ m.env = st.env.later 1 ∧ Computes (f n) o m := by
    intro n h1 hn
    cases hn
    exact ⟨st.counted, count_ok st h1, st.counted_env, h⟩
  have honly : ∀ n m, count st = (.ok n, m) →
      st.env.FaultFree 1 ∧ some (st.sees .count).count = some n := by
    intro n m hcount
    obtain ⟨h1, rfl, -⟩ := count_eq_ok hcount
    exact ⟨h1, rfl⟩
  exact Computes.bind hreturns honly

theorem computes_getLast {P : Protobuf} {g : Scan → Call Exn ReaderState (List Scan)}
    {next : Scan → Outcome} {st : ReaderState} (hst : st.Healthy)
    (hn : 0 < (st.sees .count).count)
    (hnext : ∀ newest st', st'.Healthy → st'.env = st.env.later 3 →
      st'.sees .range = st.sees .count → Computes (g newest) (next newest) st') :
    Computes (getLast P >>= g)
      ((scanAt P st.env.log (st.sees .count) ((st.sees .count).count - 1)).elim ⟨none, 3⟩
        fun newest => ⟨(next newest).scans, 3 + (next newest).steps⟩) st := by
  refine Computes.bind ?_ fun newest m h => getLast_eq_ok h
  intro newest h3 hd
  obtain ⟨m, hm, hh, henv, hr⟩ := getLast_ok hst h3 hn hd
  exact ⟨m, hm, henv, hnext newest m hh henv hr⟩

theorem computes_newest {P : Protobuf} {f : ℕ → Call Exn ReaderState (List Scan)}
    {g : Scan → Call Exn ReaderState (List Scan)} {next : Scan → Outcome} {st : ReaderState}
    (hst : st.Healthy) (hzero : f 0 = pure []) (hpos : ∀ n, 0 < n → f n = getLast P >>= g)
    (hnext : ∀ newest st', st'.Healthy → st'.env = st.env.later 4 →
      st'.sees .range = st.sees .count → Computes (g newest) (next newest) st') :
    Computes (count >>= f) (newestOutcome P st.env.log (st.sees .count) next) st := by
  have hcounted : st.counted.Healthy := hst
  unfold newestOutcome
  by_cases hn : (st.sees .count).count = 0
  · rw [if_pos hn]
    refine computes_count (o := ⟨some [], 0⟩) ?_
    rw [hn, hzero]
    exact computes_pure [] hcounted
  · -- the table has rows: what the second count and `get()` see is what the first count saw
    rw [if_neg hn]
    have hc := st.counted_sees_count
    have he := st.counted_env
    have hlast := computes_getLast (P := P) (g := g) hcounted (by rw [hc]; omega)
      fun newest m hh henv hr => by
        rw [he, ReadEnv.later_later] at henv
        exact hnext newest m hh henv (hr.trans hc)
    rw [hc, he, show (st.env.later 1).log = st.env.log from rfl,
      ← hpos _ (Nat.pos_of_ne_zero hn)] at hlast
    have hall := computes_count hlast
    cases hd : scanAt P st.env.log (st.sees .count) ((st.sees .count).count - 1) with
    | none =>
      rw [hd] at hall
      exact hall
    | some newest =>
      rw [hd, Option.elim_some, ← Nat.add_assoc] at hall
      exact hall

theorem computes_dispatch (P : Protobuf) (command : Bytes) {st : ReaderState} (hst : st.Healthy) :
    Computes (dispatch P command) (outcome P command st) st := by
  unfold dispatch outcome
  by_cases hl : command = kLatest
  · rw [if_pos hl, if_pos hl]
    exact computes_newest hst rfl (fun n hn => if_pos hn) fun newest st' hh _ _ =>
      computes_pure [newest] hh
  rw [if_neg hl, if_neg hl]
  cases hrange : parseRange command with
  | some bounds => exact computes_range P _ _ hst
  | none =>
    cases hrecent : parseRecent command with
    | some windowNs =>
      refine computes_newest hst rfl (fun n hn => if_neg (by omega)) fun newest st' hh he hr => ?_
      have h := computes_range P (newest.stampNs - windowNs) newest.stampNs hh
      rw [he, hr] at h
      exact h
    | none => exact computes_pure [] hst

end AuvMiddleware.Lidar
