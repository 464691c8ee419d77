import LurusHub.Transition
import Mathlib.Algebra.Order.BigOperators.Group.List
import Mathlib.Tactic.Linarith

/-! Spending without a hold while the billing platform is down. `reserveDegradedSpend` reads the tenant's counter and adds
to it in two round trips, so that all calls between the two pass on the same reading. -/
namespace LurusHub.DegradedSpend
open Transition List

structure Tenant where
  counter : ℚ := 0
  waiting : List ℚ := []
  granted : List ℚ := []

inductive Reply
  | ok | lost | failed

inductive Event
  | get (estimatedLB : ℚ) (fails : Bool)
  | incrByFloat (i : ℕ) (reply : Reply)

/-- A counter that cannot be read counts as 0. -/
def reserveDegradedSpend (redisEnabled : Bool) (billingDegradedSpendCapLB : ℚ) (t : Tenant) : Event → Tenant
  | .get estimatedLB fails =>
    let cur := if fails then 0 else t.counter
    if redisEnabled = false ∨ billingDegradedSpendCapLB ≤ cur then t else { t with waiting := t.waiting++[estimatedLB] }
  | .incrByFloat i reply =>
    match t.waiting[i]? with
    | none => t
    | some estimatedLB =>
      let t := { t with waiting := t.waiting.eraseIdx i }
      match reply with
      | .ok => { t with counter := t.counter+estimatedLB, granted := estimatedLB::t.granted }
      | .lost => { t with counter := t.counter+estimatedLB }
      | .failed => t

def Estimates (E : ℚ) : Event → Prop
  | .get estimatedLB _ => 0 ≤ estimatedLB ∧ estimatedLB ≤ E
  | .incrByFloat _ _ => True

/-- The counter is read while fewer than `k` calls have still to add to it. -/
def FewWaiting (k : ℕ) (t : Tenant) : Event → Prop
  | .get _ fails => fails = false ∧ t.waiting.length < k
  | .incrByFloat _ _ => True

instance (k : ℕ) (t : Tenant) : ∀ e, Decidable (FewWaiting k t e)
  | .get _ _ => inferInstanceAs (Decidable (_ ∧ _))
  | .incrByFloat _ _ => .isTrue trivial

structure Bounded (cap E : ℚ) (k : ℕ) (t : Tenant) : Prop where
  estimates : ∀ x ∈ t.waiting, 0 ≤ x ∧ x ≤ E
  granted : t.granted.sum ≤ t.counter
  counter : t.counter+t.waiting.sum ≤ cap+k*E

lemma sum_le_of_estimates {l : List ℚ} (h : ∀ x ∈ l, 0 ≤ x ∧ x ≤ E) : 0 ≤ l.sum ∧ l.sum ≤ l.length*E := by
  refine ⟨sum_nonneg fun x hx => (h x hx).1,?_⟩
  simpa using sum_le_card_nsmul l E fun x hx => (h x hx).2

lemma Bounded.get (hE : 0 ≤ E) (h : Bounded cap E k t) (he : 0 ≤ lb ∧ lb ≤ E)
    (hfew : t.waiting.length < k) : Bounded cap E k (reserveDegradedSpend redisEnabled cap t (.get lb false)) := by
  simp only [reserveDegradedSpend,Bool.false_eq_true,if_false]
  split
  · exact h
  · next hpass =>
    have hcur : t.counter < cap := not_le.mp fun hle => hpass (.inr hle)
    refine ⟨forall_mem_append.mpr ⟨h.estimates,forall_mem_singleton.mpr he⟩,h.granted,?_⟩
    have hwai := (sum_le_of_estimates h.estimates).2
    have hroom : (t.waiting.length : ℚ)*E+E ≤ k*E := by
      have hleng : ((t.waiting.length+1 : ℕ) : ℚ) ≤ k := Nat.cast_le.mpr hfew
      have := mul_le_mul_of_nonneg_right hleng hE
      push_cast at this
      linarith
    simp only [sum_append,sum_singleton]
    linarith [he.2]

lemma Bounded.incrByFloat (h : Bounded cap E k t) (i : ℕ) (reply : Reply) :
    Bounded cap E k (reserveDegradedSpend redisEnabled cap t (.incrByFloat i reply)) := by
  cases hi : t.waiting[i]? with
  | none => simpa [reserveDegradedSpend,hi] using h
  | some estimatedLB =>
    obtain ⟨hlt,rfl⟩ := List.getElem?_eq_some_iff.mp hi
    have hnonneg := (h.estimates _ (List.getElem_mem hlt)).1
    have hsum : t.waiting[i]+(t.waiting.eraseIdx i).sum = t.waiting.sum := by simp
    have hest : ∀ x ∈ t.waiting.eraseIdx i, 0 ≤ x ∧ x ≤ E := fun x hx => h.estimates x (mem_of_mem_eraseIdx hx)
    have hgra := h.granted
    have hcou := h.counter
    cases reply <;> simp only [reserveDegradedSpend,hi] <;> refine ⟨hest,?_,?_⟩ <;> simp only [sum_cons] <;> linarith

/-- With `k` calls between reading and writing the cap is passed by `k` estimates at most. -/
theorem granted_le_of_fewWaiting (redisEnabled : Bool) {cap E : ℚ} (hcap : 0 ≤ cap) (hE : 0 ≤ E) (k : ℕ) (events : List Event)
    (hestimates : ∀ e ∈ events, Estimates E e) (hfew : Along (reserveDegradedSpend redisEnabled cap) (FewWaiting k) {} events) :
    (run (reserveDegradedSpend redisEnabled cap) {} events).granted.sum ≤ cap+k*E := by
  have hbound : Bounded cap E k (run (reserveDegradedSpend redisEnabled cap) {} events) := by
    refine run_invariant (G := fun t e => FewWaiting k t e ∧ Estimates E e) ?_ ⟨by simp,by simp,?_⟩
      (hfew.and (along_of_forall (fun e he _ => hestimates e he) _))
    · rintro t (⟨estimatedLB,fails⟩ | ⟨i,reply⟩) h ⟨hfew,he⟩
      · obtain ⟨rfl,hleng⟩ := hfew
        exact h.get hE he hleng
      · exact h.incrByFloat i reply
    · have := mul_nonneg (Nat.cast_nonneg (α := ℚ) k) hE
      simpa using by linarith
  have hwai := (sum_le_of_estimates hbound.estimates).1
  linarith [hbound.granted,hbound.counter]

theorem granted_le_one_at_a_time :
    let events := [Event.get 30 false,.incrByFloat 0 .ok,.get 30 false,.incrByFloat 0 .ok,.get 30 false]
    (run (reserveDegradedSpend true 50) {} events).granted.sum ≤ 50+(1 : ℕ)*30 := by
  intro events
  refine granted_le_of_fewWaiting true (by norm_num) (by norm_num) 1 events ?_ (by decide +kernel)
  simp [events,Estimates]

theorem concurrent_calls_exceed_cap :
    let events := [Event.get 30 false,.get 30 false,.get 30 false,.incrByFloat 0 .ok,.incrByFloat 0 .ok,.incrByFloat 0 .ok]
    (∀ e ∈ events, Estimates 30 e) ∧ 50+30 < (run (reserveDegradedSpend true 50) {} events).granted.sum := by
  refine ⟨by simp [Estimates],by decide +kernel⟩

end LurusHub.DegradedSpend
