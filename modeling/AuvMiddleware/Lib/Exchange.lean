import Mathlib.Data.Multiset.OrderedMonoid
import Mathlib.Data.Multiset.UnionInter

/-!
# Questions and answers

Questions are told apart by a key. A question is asked once, may get lost, and is answered at most
once while it waits; an answer may get lost before it is collected. Where the questions and the
answers are on their way does not matter here, only how many of each there are.
-/

namespace AuvMiddleware.Exchanges

variable {ρ β κ : Type}

structure Exchange (ρ β : Type) where
  waiting : Multiset ρ := 0
  handled : Multiset (ρ × β) := 0
  answers : Multiset (ρ × β) := 0

namespace Exchange

def about (x : Exchange ρ β) : Multiset ρ := x.waiting + x.answers.map Prod.fst

def keys (key : ρ → κ) (x : Exchange ρ β) : Multiset κ :=
  (x.waiting + x.handled.map Prod.fst).map key

def ask (r : ρ) (x : Exchange ρ β) : Exchange ρ β := { x with waiting := r ::ₘ x.waiting }

/-- Things get lost, or a question that waits is answered. -/
inductive Settles (x : Exchange ρ β) : Exchange ρ β → Prop where
  | lose {w : Multiset ρ} {a : Multiset (ρ × β)} (hw : w ≤ x.waiting) (ha : a ≤ x.answers) :
      Settles x { x with waiting := w, answers := a }
  | answer (r : ρ) (v : β) {w : Multiset ρ} (hw : x.waiting = r ::ₘ w) :
      Settles x ⟨w, (r, v) ::ₘ x.handled, (r, v) ::ₘ x.answers⟩

structure Inv (key : ρ → κ) (x : Exchange ρ β) : Prop where
  once : (x.keys key).Nodup
  answered : x.answers ≤ x.handled

variable {key : ρ → κ} {x y : Exchange ρ β}

theorem inv_empty : Inv key ({} : Exchange ρ β) := ⟨Multiset.nodup_zero, le_rfl⟩

theorem keys_ask (r : ρ) : (x.ask r).keys key = key r ::ₘ x.keys key := by
  rw [keys, ask, Multiset.cons_add, Multiset.map_cons]
  rfl

theorem about_ask (r : ρ) : (x.ask r).about = r ::ₘ x.about := Multiset.cons_add r _ _

theorem Inv.ask (hx : Inv key x) {r : ρ} (hr : key r ∉ x.keys key) : Inv key (x.ask r) := by
  refine ⟨?_, hx.answered⟩
  rw [keys_ask]
  exact hx.once.cons hr

namespace Settles

theorem keys_le (h : Settles x y) : y.keys key ≤ x.keys key := by
  cases h with
  | lose hw ha => exact Multiset.map_le_map (Multiset.add_le_add_right hw)
  | answer r v hw =>
    apply le_of_eq
    rw [keys, keys, hw, Multiset.map_cons, Multiset.add_cons, Multiset.cons_add]

theorem handled_le (h : Settles x y) : x.handled ≤ y.handled := by
  cases h with
  | lose hw ha => exact le_rfl
  | answer r v hw => exact Multiset.le_cons_self _ _

theorem about_le (h : Settles x y) : y.about ≤ x.about := by
  cases h with
  | lose hw ha => exact add_le_add hw (Multiset.map_le_map ha)
  | answer r v hw =>
    apply le_of_eq
    rw [about, about, hw, Multiset.map_cons, Multiset.add_cons, Multiset.cons_add]

theorem inv (h : Settles x y) (hx : Inv key x) : Inv key y := by
  refine ⟨Multiset.nodup_of_le h.keys_le hx.once, ?_⟩
  cases h with
  | lose hw ha => exact ha.trans hx.answered
  | answer r v hw => exact Multiset.cons_le_cons (r, v) hx.answered

end Settles

namespace Inv

theorem handled_once (h : Inv key x) : (x.handled.map fun a => key a.1).Nodup := by
  have hn := h.once
  rw [keys, Multiset.map_add, Multiset.map_map] at hn
  exact (Multiset.nodup_add.mp hn).2.1

theorem mem_handled (h : Inv key x) {a : ρ × β} (ha : a ∈ x.answers) : a ∈ x.handled :=
  Multiset.mem_of_le h.answered ha

theorem not_waiting (h : Inv key x) {a : ρ × β} (ha : a ∈ x.handled) {r : ρ}
    (hr : r ∈ x.waiting) : key r ≠ key a.1 := by
  intro heq
  have hn := h.once
  rw [keys, Multiset.map_add, Multiset.map_map] at hn
  have hdisj := (Multiset.nodup_add.mp hn).2.2
  have hmem := Multiset.mem_map_of_mem key hr
  rw [heq] at hmem
  exact Multiset.disjoint_left.mp hdisj hmem
    (Multiset.mem_map_of_mem (fun b : ρ × β => key b.1) ha)

theorem only_answer (h : Inv key x) {a b : ρ × β} {rest : Multiset (ρ × β)}
    (ha : x.answers = a ::ₘ rest) (hb : b ∈ rest) : key b.1 ≠ key a.1 := by
  intro heq
  have hn := Multiset.nodup_of_le
    (Multiset.map_le_map (f := fun c : ρ × β => key c.1) h.answered) h.handled_once
  rw [ha, Multiset.map_cons, Multiset.nodup_cons] at hn
  apply hn.1
  rw [← heq]
  exact Multiset.mem_map_of_mem (fun c : ρ × β => key c.1) hb

/-- When an answer has been collected, nothing of its question is left. -/
theorem collected (h : Inv key x) {a : ρ × β} {rest : Multiset (ρ × β)}
    (ha : x.answers = a ::ₘ rest) {r : ρ} (hr : r ∈ about { x with answers := rest }) :
    key r ≠ key a.1 := by
  rcases Multiset.mem_add.mp hr with hr | hr
  · refine h.not_waiting (h.mem_handled ?_) hr
    rw [ha]
    exact Multiset.mem_cons_self a rest
  · obtain ⟨b, hb, rfl⟩ := Multiset.mem_map.mp hr
    exact h.only_answer ha hb

end Inv

end Exchange

end AuvMiddleware.Exchanges
