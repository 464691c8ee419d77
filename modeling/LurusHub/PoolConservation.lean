import LurusHub.PoolSystem
import Mathlib.Tactic.Linarith

/-! A pool's balance is the sum of its draws. Transactions that read and write the balance in one
statement keep this; the scheduled reset records a credit from an earlier read, so it does exactly
when the balance has not moved since. -/
namespace LurusHub.PoolConservation
open CreditPool FundEvent PoolSystem Transition KeyedTable Option

def Conserved (s : State) : Prop :=
  ∀ pool ∈ s.db.pools.rows, pool.currentBalance = ledgerBalance s.db.draws pool.id
  deriving Decidable

/-- No reset runs on a balance that moved after it was listed, nor one whose refill does not fit an
`int64`. -/
def FreshReset (s : State) (a : Act) : Prop :=
  ∀ r ∈ pendingReset s a, ∀ pool ∈ s.db.pools.get? r.2.id, SwapWins pool r.2 →
    pool.currentBalance = r.2.currentBalance ∧ FitsInt64 (r.2.maxBalance-r.2.currentBalance)

instance (s : State) (a : Act) : Decidable (FreshReset s a) :=
  inferInstanceAs (Decidable (∀ r ∈ pendingReset s a, ∀ pool ∈ s.db.pools.get? r.2.id,
    SwapWins pool r.2 → _))

structure WellFormed (s : State) : Prop where
  owned : ∀ d ∈ s.db.draws, (s.db.pools.get? d.poolID).isSome
  fits : ∀ k pool, s.db.pools.get? k = some pool →
    FitsInt64 pool.currentBalance ∧ FitsInt64 pool.maxBalance
  listed : ∀ now due, Call.reset now due ∈ s.calls → ∀ pool ∈ due,
    FitsInt64 pool.currentBalance ∧ FitsInt64 pool.maxBalance

lemma conserved_iff : Conserved s ↔ ∀ k pool, s.db.pools.get? k = some pool →
      pool.currentBalance = ledgerBalance s.db.draws k := by
  constructor
  · intro h k pool hk
    have hid : pool.id = k := key_of_get? hk
    rw [← hid]
    exact h pool (mem_of_get? hk)
  · intro h pool hmem
    exact h pool.id pool (get?_of_mem hmem)

/-! A move of the balance together with its draw. -/

section
variable (h : Moved db db' poolID delta draw)
include h

lemma moved_conserved
    (hs : ∀ k pool, db.pools.get? k = some pool → pool.currentBalance = ledgerBalance db.draws k) :
    ∀ k pool, db'.pools.get? k = some pool → pool.currentBalance = ledgerBalance db'.draws k := by
  intro k pool hk
  rw [h.get?_pools] at hk
  rw [h.ledger]
  by_cases hp : k = poolID
  · simp only [hp] at hk ⊢
    obtain ⟨q,hq,rfl⟩ := map_eq_some_iff.mp hk
    have hbal := hs poolID q hq
    simp [hbal]
  · rw [if_neg hp] at hk
    rw [if_neg (Ne.symm hp),add_zero]
    exact hs k pool hk

lemma moved_owned (hs : ∀ d ∈ db.draws, (db.pools.get? d.poolID).isSome) :
    ∀ d ∈ db'.draws, (db'.pools.get? d.poolID).isSome := by
  intro d hd
  have hsome : (db.pools.get? d.poolID).isSome := by
    rw [h.draws,List.mem_append,List.mem_singleton] at hd
    rcases hd with hd | rfl
    · exact hs d hd
    · obtain ⟨pool,hpool,_⟩ := h.pools
      rw [h.target,hpool]
      rfl
  rw [h.get?_pools]
  split
  · simpa using hsome
  · exact hsome

lemma moved_fits (hs : ∀ k pool, db.pools.get? k = some pool →
      FitsInt64 pool.currentBalance ∧ FitsInt64 pool.maxBalance) :
    ∀ k pool, db'.pools.get? k = some pool →
      FitsInt64 pool.currentBalance ∧ FitsInt64 pool.maxBalance := by
  intro k pool hk
  rw [h.get?_pools] at hk
  by_cases hp : k = poolID
  · subst hp
    rw [if_pos rfl] at hk
    obtain ⟨q,hq,rfl⟩ := map_eq_some_iff.mp hk
    obtain ⟨q',hq',hfit,_⟩ := h.pools
    obtain rfl : q = q' := some.inj (hq.symm.trans hq')
    exact ⟨hfit,(hs k q hq).2⟩
  · rw [if_neg hp] at hk
    exact hs k pool hk

end

lemma created_conserved {db db' : DB}
    (hins : db.pools.insert? pool = some db'.pools) (hdra : db'.draws = db.draws)
    (hzero : pool.currentBalance = 0) (howned : ∀ d ∈ db.draws, (db.pools.get? d.poolID).isSome)
    (hs : ∀ k pool, db.pools.get? k = some pool → pool.currentBalance = ledgerBalance db.draws k) :
    ∀ k pool, db'.pools.get? k = some pool → pool.currentBalance = ledgerBalance db'.draws k := by
  intro k q hk
  rw [get?_insert? hins] at hk
  rw [hdra]
  split at hk
  · next hkey =>
    obtain rfl : pool = q := some.inj hk
    -- the new id was free, so no draw can mention it yet
    have hfree : db.pools.get? k = none := by rw [hkey]; exact (insert?_eq_some.mp hins).1
    have habs : ∀ d ∈ db.draws, d.poolID ≠ k := by
      intro d hd heq
      have hsome := howned d hd
      rw [heq,hfree] at hsome
      cases hsome
    rw [hzero,ledgerBalance_of_absent habs]
  · exact hs k q hk

lemma conserved_step (hw : WellFormed s) (hs : Conserved s)
    (hp : pendingReset s a = none) : Conserved (step s a) := by
  rw [conserved_iff] at hs ⊢
  rcases effect_cases (step_effect s a) hp with ⟨poolID,delta,draw,hm⟩ | ⟨pool,hins,hd,hz,_⟩ | ⟨hpools,hd⟩
  · exact moved_conserved hm hs
  · exact created_conserved hins hd hz hw.owned hs
  · rw [hpools,hd]
    exact hs

theorem conserved_reset (hw : WellFormed s) (hs : Conserved s) (hl : FitsInt64 listed.currentBalance)
    (hpool : s.db.pools.get? listed.id = some pool)
    (h : resetOnePoolInTx s.db listed (resetDelta listed) now next = some t.db) :
    Conserved t ↔ pool.currentBalance = listed.currentBalance ∧
      FitsInt64 (listed.maxBalance-listed.currentBalance) := by
  rw [conserved_iff] at hs ⊢
  obtain ⟨_,_,hpools,draw,hdra,htar,hsig,_⟩ := resetOnePoolInTx_some h
  have hbal := hs listed.id pool hpool
  have hledger : ∀ k, ledgerBalance t.db.draws k =
      ledgerBalance s.db.draws k + if listed.id = k then resetDelta listed else 0 := by
    intro k
    rw [hdra,ledgerBalance_append_one,htar,hsig]
  rw [hpools]
  constructor
  · intro h
    have hrow := h listed.id _ (by rw [get?_modify_self,hpool]; rfl)
    rw [hledger,if_pos rfl] at hrow
    have hdelta : resetDelta listed = listed.maxBalance-pool.currentBalance := by
      simp only at hrow
      omega
    have heq := eq_of_wrapInt64_sub hl (hw.fits _ _ hpool).1 hdelta
    refine ⟨heq.symm,?_⟩
    have hfit := wrapInt64_fits (listed.maxBalance-listed.currentBalance)
    rw [show wrapInt64 (listed.maxBalance-listed.currentBalance) = resetDelta listed from rfl,
      hdelta,← heq] at hfit
    exact hfit
  · rintro ⟨heq,hfit⟩ k q hk
    rw [hledger]
    by_cases hkid : k = listed.id
    · subst hkid
      rw [get?_modify_self,hpool] at hk
      cases hk
      simp only [if_true,resetDelta,wrapInt64_of_fits hfit]
      omega
    · rw [get?_modify_of_ne _ _ _ hkid] at hk
      rw [if_neg (Ne.symm hkid),add_zero]
      exact hs k q hk

lemma conserved_step_iff (s : State) (a : Act) (hw : WellFormed s) (hs : Conserved s) :
    Conserved (step s a) ↔ FreshReset s a := by
  cases hp : pendingReset s a with
  | none =>
    have hfresh : FreshReset s a := by simp [FreshReset,hp]
    exact iff_of_true (conserved_step hw hs hp) hfresh
  | some r =>
    obtain ⟨now,listed⟩ := r
    obtain ⟨due,hcall⟩ := reset_mem_of_pending hp
    have hl := hw.listed now _ hcall listed (by simp)
    have hdb := step_pendingReset hp
    have hfresh : FreshReset s a ↔ ∀ pool, s.db.pools.get? listed.id = some pool → SwapWins pool listed →
        pool.currentBalance = listed.currentBalance ∧
          FitsInt64 (listed.maxBalance-listed.currentBalance) := by simp [FreshReset,hp]
    rw [hfresh]
    cases hr : resetOnePoolInTx s.db listed (resetDelta listed) now
        (nextResetAt listed.resetPeriod now) with
    | none =>
      have hlost := resetOnePoolInTx_none hr
      rw [hr] at hdb
      refine iff_of_true ?_ (fun pool hpool hwin => absurd hwin (hlost pool hpool))
      simpa [Conserved,hdb] using hs
    | some db' =>
      obtain ⟨⟨pool,hpool,hwin⟩,_⟩ := resetOnePoolInTx_some hr
      rw [hr] at hdb
      rw [conserved_reset (t:=step s a) hw hs hl.1 hpool (by rw [hr,hdb]; rfl)]
      constructor
      · intro h q hq _
        obtain rfl : pool = q := some.inj (hpool.symm.trans hq)
        exact h
      · intro h
        exact h pool hpool hwin

/-! The well-formedness of states. -/

lemma wellFormed_init : WellFormed init where
  owned := by simp [init,DB.empty]
  fits := by simp [init,DB.empty]
  listed := by simp [init]

lemma owned_step (hw : WellFormed s) :
    ∀ d ∈ (step s a).db.draws, ((step s a).db.pools.get? d.poolID).isSome := by
  cases hp : pendingReset s a with
  | none =>
    rcases effect_cases (step_effect s a) hp with ⟨poolID,delta,draw,hm⟩ | ⟨pool,hins,hd,_⟩ | ⟨hpools,hd⟩
    · exact moved_owned hm hw.owned
    · intro d hmem
      rw [hd] at hmem
      rw [get?_insert? hins]
      split
      · rfl
      · exact hw.owned d hmem
    · rw [hpools,hd]
      exact hw.owned
  | some r =>
    rw [step_pendingReset hp]
    cases hr : resetOnePoolInTx s.db r.2 (resetDelta r.2) r.1 (nextResetAt r.2.resetPeriod r.1) with
    | none => exact hw.owned
    | some db' =>
      obtain ⟨⟨pool,hpool,_⟩,_,hpools,draw,hdra,htar,_⟩ := resetOnePoolInTx_some hr
      intro d hmem
      simp only [getD_some] at hmem ⊢
      rw [hdra,List.mem_append,List.mem_singleton] at hmem
      rw [hpools,get?_modify]
      rcases hmem with hmem | rfl
      · have := hw.owned d hmem
        split <;> simpa using this
      · simp [htar,hpool]

lemma fits_step (hw : WellFormed s) : ∀ k pool, (step s a).db.pools.get? k = some pool →
      FitsInt64 pool.currentBalance ∧ FitsInt64 pool.maxBalance := by
  cases hp : pendingReset s a with
  | none =>
    rcases effect_cases (step_effect s a) hp with
      ⟨poolID,delta,draw,hm⟩ | ⟨pool,hins,_,hz,hmax⟩ | ⟨hpools,_⟩
    · exact moved_fits hm hw.fits
    · intro k q hk
      rw [get?_insert? hins] at hk
      split at hk
      · cases hk
        exact ⟨by rw [hz]; decide,hmax⟩
      · exact hw.fits k q hk
    · rw [hpools]
      exact hw.fits
  | some r =>
    obtain ⟨due,hcall⟩ := reset_mem_of_pending hp
    have hl := hw.listed _ _ hcall r.2 (by simp)
    rw [step_pendingReset hp]
    cases hr : resetOnePoolInTx s.db r.2 (resetDelta r.2) r.1 (nextResetAt r.2.resetPeriod r.1) with
    | none => exact hw.fits
    | some db' =>
      obtain ⟨_,_,hpools,_⟩ := resetOnePoolInTx_some hr
      intro k q hk
      rw [getD_some,hpools,get?_modify] at hk
      split at hk
      · obtain ⟨p,hp,rfl⟩ := map_eq_some_iff.mp hk
        exact ⟨hl.2,(hw.fits k p hp).2⟩
      · exact hw.fits k q hk

lemma wellFormed_step (s : State) (a : Act) (hw : WellFormed s) : WellFormed (step s a) where
  owned := owned_step hw
  fits := fits_step hw
  listed := by
    intro now due hcall pool hpool
    rcases listed_origin hcall hpool with ⟨due,h,hpool⟩ | hdue
    · exact hw.listed now due h pool hpool
    · exact hw.fits pool.id pool (get?_of_mem (List.mem_filter.mp hdue).1)

/-- The law holds in every state exactly when no reset finds a moved balance. -/
theorem conserved_always_iff_freshReset (acts : List Act) :
    Always step Conserved init acts ↔ Along step FreshReset init acts := by
  apply always_iff_along wellFormed_step conserved_step_iff acts wellFormed_init
  intro pool hpool
  simp [init,DB.empty,empty] at hpool

/-- A pool of 100 funded with 50 is listed for its reset; a debit of 10 commits before the reset's
transaction. -/
def staleResetRun : List Act :=
  [.createTenantCreditPool "t" 1 100 .daily 80 0,
   .fundPoolIdempotentWithReason ⟨1,"t",50,"e","platform-billing-outbox",0,"topup"⟩ false,
   .advance 0,
   .resetDuePools dayNanos,
   .debitPool 1 "t" 10 7 0,
   .advance 0]

theorem staleResetRun_not_conserved : ¬ Always step Conserved init staleResetRun ∧
    (run step init staleResetRun).db.pools.rows.map (·.currentBalance) = [100] ∧
    ledgerBalance (run step init staleResetRun).db.draws 1 = 90 := by decide

end LurusHub.PoolConservation
