import LurusHub.BillingOutbox

/-! Safety of the billing outbox. While every lease is kept, each entry is absent, free or held by
one worker (`Phase`), and `retry_count` and status account for every platform call. Without the
lease a row that is 'done' still stays 'done'. -/
namespace LurusHub.OutboxSafety
open Transition BillingOutbox KeyedTable List

/-- The entries a worker owns, each with the answer of its call if it has been made. -/
def holds : Worker → List (Row × Option Outcome)
  | .idle => []
  | .busy _ queue current => (current.map fun x => (x.1,some x.2)).toList++queue.map (·,none)

def held (w : Worker) (k : Key) : List (Row × Option Outcome) := (holds w).filter fun x => x.1.key = k

@[simp] lemma held_idle : held .idle k = [] := rfl

lemma held_busy : held (.busy table queue current) k =
      (current.toList.filter fun x => x.1.key = k).map (fun x => (x.1,some x.2)) ++
        (queue.filter fun r => r.key = k).map (·,none) := by
  cases current <;> simp [held,holds,filter_map,filter_cons,Function.comp_def]
  split <;> simp

def heldBy (s : State) (i : ℕ) (k : Key) : List (Row × Option Outcome) := (s.workers[i]?.map (held · k)).getD []

/-- No worker holds an entry until its lease is over. The claim wrote its timestamp into the entry. -/
def LeaseKept (s : State) : Prop := ∀ w ∈ s.workers, ∀ x ∈ holds w, s.clock < x.1.updatedAt+outboxClaimLease
  deriving Decidable

def failures : Option Outcome → ℕ
  | some (.failure _ _) => 1
  | some .success | none => 0

def successes : Option Outcome → ℕ
  | some .success => 1
  | some (.failure _ _) | none => 0

def callCount (s : State) (k : Key) : ℕ := s.calls.countP fun c => c.1 = k
def failedCalls (s : State) (k : Key) : ℕ := s.calls.countP fun c => c.1 = k && failures (some c.2) = 1
def succeededCalls (s : State) (k : Key) : ℕ := s.calls.countP fun c => c.1 = k && successes (some c.2) = 1

lemma heldBy_setWorker (hw : s.workers[i]? = some w) (j : ℕ) (k : Key) :
    heldBy (s.setWorker i w') j k = if j = i then held w' k else heldBy s j k := by
  have hlt : i < s.workers.length := (List.getElem?_eq_some_iff.mp hw).1
  by_cases hj : j = i
  · subst hj
    simp [heldBy,State.setWorker,hlt]
  · simp [heldBy,State.setWorker,Ne.symm hj,hj]

lemma heldBy_setWorker_same (hw : s.workers[i]? = some w)
    (hsame : held w' k = held w k) (j : ℕ) : heldBy (s.setWorker i w') j k = heldBy s j k := by
  rw [heldBy_setWorker hw]
  split
  · next hj => simp [heldBy,hj,hw,hsame]
  · rfl

lemma heldBy_setWorker_other (hw : s.workers[i]? = some w)
    (hsame : ∀ k, k ≠ key → held w' k = held w k) (hne : ¬(j = i ∧ k = key)) :
    heldBy (s.setWorker i w') j k = heldBy s j k := by
  by_cases hk : k = key
  · rw [heldBy_setWorker hw,if_neg fun hj => hne ⟨hj,hk⟩]
  · exact heldBy_setWorker_same hw (hsame k hk) j

/-! Everything a step can do. -/

inductive Effect (s s' : State) : Prop
  | stutter (hrows : s'.rows = s.rows) (hheld : ∀ j k, heldBy s' j k = heldBy s j k) (hcalls : s'.calls = s.calls)
  | created (r : Row) (hnew : r.status = .pending ∧ r.retryCount = 0) (hnone : s.rows.get? r.key = none)
      (hrows : ∀ k, s'.rows.get? k = if k = r.key then some r else s.rows.get? k)
      (hheld : ∀ j k, heldBy s' j k = heldBy s j k) (hcalls : s'.calls = s.calls)
  | claimed (i : ℕ) (now : Time) (picked : List Row) (hnow : now ≤ s.clock)
      (hdue : ∀ r ∈ picked, r ∈ s.rows.rows ∧ due now r = true) (hdistinct : (picked.map Row.key).Nodup)
      (hrows : ∀ k, s'.rows.get? k = (s.rows.get? k).map fun r => if r ∈ picked then r.claimed now else r)
      (hself : ∀ k, heldBy s' i k = (picked.filter fun r => r.key = k).map fun r => (r.claimed now,none))
      (hidle : ∀ k, heldBy s i k = []) (hheld : ∀ j k, j ≠ i → heldBy s' j k = heldBy s j k)
      (hcalls : s'.calls = s.calls)
  | called (i : ℕ) (e : Row) (o : Outcome) (hmem : (e,none) ∈ heldBy s i e.key) (hrows : s'.rows = s.rows)
      (hself : heldBy s i e.key = [(e,none)] → heldBy s' i e.key = [(e,some o)])
      (hheld : ∀ j k, ¬ (j = i ∧ k = e.key) → heldBy s' j k = heldBy s j k)
      (hcalls : s'.calls = s.calls++[(e.key,o)])
  | finished (i : ℕ) (e : Row) (o : Outcome) (hmem : (e,some o) ∈ heldBy s i e.key)
      (hrows : ∀ k, s'.rows.get? k = (s.rows.get? k).map fun r =>
        if r.key = e.key ∧ r.status = .processing then finalUpdate s.clock e o r else r)
      (hself : heldBy s i e.key = [(e,some o)] → heldBy s' i e.key = [])
      (hheld : ∀ j k, ¬ (j = i ∧ k = e.key) → heldBy s' j k = heldBy s j k) (hcalls : s'.calls = s.calls)

lemma Effect.refl (s : State) : Effect s s := .stutter rfl (fun _ _ => rfl) rfl

lemma mem_claimable {rows : KeyedTable Row Key Row.key}
    (h : r ∈ claimable rows table now locked) : r ∈ rows.rows ∧ due now r := by
  have hsorted := mem_of_mem_take h
  rw [mem_insertionSort,mem_filter] at hsorted
  have hkept := hsorted.2
  simp only [Bool.and_eq_true] at hkept
  exact ⟨hsorted.1,hkept.1.2⟩

lemma claimable_distinct (rows : KeyedTable Row Key Row.key) :
    ((claimable rows table now locked).map Row.key).Nodup := by
  have hfilter : ((rows.rows.filter fun r => r.action.table = table && due now r && !locked.contains r.key).map
      Row.key).Nodup := rows.unique.sublist (filter_sublist.map Row.key)
  have hsort := ((perm_insertionSort (fun a b : Row => a.nextRetry ≤ b.nextRetry) _).map Row.key).nodup_iff.mpr
    hfilter
  exact hsort.sublist ((take_sublist 50 _).map Row.key)

lemma enqueue_effect : Effect s (step s (.enqueue action now)) := by
  simp only [step]
  split_ifs
  · cases henq : enqueue s.rows action now with
    | none => exact .refl s
    | some rows =>
      unfold enqueue at henq
      split_ifs at henq
      have hnone := (insert?_eq_some.mp henq).1
      exact .created _ ⟨rfl,rfl⟩ hnone (get?_insert? henq) (fun _ _ => rfl) rfl
  · exact .refl s

lemma held_of_nextTable (h : w.nextTable = some table) : held w k = [] := by
  cases w with
  | idle => rfl
  | busy t queue current =>
    cases t <;> cases queue <;> cases current <;> first | rfl | cases h

lemma claim_effect : Effect s (step s (.claim i now locked)) := by
  simp only [step]
  split
  · next table htable =>
    split_ifs with hnow
    · obtain ⟨w,hw,hnext⟩ := Option.bind_eq_some_iff.mp htable
      have hheld : ∀ j k, heldBy (s.setWorker i (.busy table ((claimable s.rows table now locked).map
          (Row.claimed now)) none)) j k = if j = i then
            ((claimable s.rows table now locked).filter fun r => r.key = k).map fun r => (r.claimed now,none)
          else heldBy s j k := by
        intro j k
        rw [heldBy_setWorker hw]
        simp only [held_busy,filter_map,map_map]
        rfl
      refine .claimed i now (claimable s.rows table now locked) hnow (fun r => mem_claimable)
        (claimable_distinct s.rows) (fun k => ?_) (fun k => ?_) (fun k => ?_)
        (fun j k hj => ?_) rfl
      · have hget := get?_updateWhere s.rows (fun r => r ∈ claimable s.rows table now locked)
          (Row.claimed now) (fun _ => rfl) k
        simpa only [decide_eq_true_eq,claimOutboxRows] using hget
      · simpa [claimOutboxRows,heldBy] using hheld i k
      · simp [heldBy,hw,held_of_nextTable hnext]
      · simpa [claimOutboxRows,heldBy,hj] using hheld j k
    · exact .refl s
  · exact .refl s

lemma claimError_effect : Effect s (step s (.claimError i)) := by
  simp only [step]
  split
  · next table htable =>
    obtain ⟨w,hw,hnext⟩ := Option.bind_eq_some_iff.mp htable
    refine .stutter rfl (fun j k => heldBy_setWorker_same hw ?_ j) rfl
    rw [held_of_nextTable hnext]
    split <;> rfl
  · exact .refl s

lemma exit_effect : Effect s (step s (.exit i)) := by
  simp only [step]
  split
  · next hw =>
    have hempty : ∀ k, held .idle k = held (.busy .billingOutbox [] none) k := fun _ => rfl
    exact .stutter rfl (fun j k => heldBy_setWorker_same hw (hempty k) j) rfl
  · exact .refl s

lemma eraseIdx_split {α : Type} {l : List α} {a : α} (h : l[n]? = some a) :
    ∃ xs ys, l = xs++a::ys ∧ l.eraseIdx n = xs++ys := by
  obtain ⟨hlt,rfl⟩ := List.getElem?_eq_some_iff.mp h
  refine ⟨l.take n,l.drop (n+1),?_,List.eraseIdx_eq_take_drop_succ l n⟩
  rw [← List.drop_eq_getElem_cons hlt,List.take_append_drop]

lemma call_effect : Effect s (step s (.call i n o)) := by
  simp only [step]
  split
  · next table queue hw =>
    split
    · next e he =>
      obtain ⟨xs,ys,rfl,hera⟩ := eraseIdx_split he
      rw [hera]
      have hold : ∀ k, heldBy s i k = held (.busy table (xs++e::ys) none) k := fun k => by simp [heldBy,hw]
      have hnew : ∀ j k, heldBy (s.setWorker i (.busy table (xs++ys) (some (e,o)))) j k =
          if j = i then held (.busy table (xs++ys) (some (e,o))) k else heldBy s j k := heldBy_setWorker hw
      refine .called i e o ?_ rfl (fun hone => ?_) (fun j k hne => ?_) rfl
      · simp [hold,held_busy]
      · rw [hold,held_busy] at hone
        have hnil : xs.filter (fun r => r.key = e.key) = [] ∧ ys.filter (fun r => r.key = e.key) = [] := by
          have hlen := congrArg length hone
          simp only [filter_append,filter_cons,decide_true,if_true,length_map,length_append,length_cons,
            length_nil] at hlen
          exact ⟨length_eq_zero_iff.mp (by omega),length_eq_zero_iff.mp (by omega)⟩
        have hown := hnew i e.key
        simp only [held_busy,filter_append,hnil] at hown
        simpa [heldBy] using hown
      · refine heldBy_setWorker_other hw (fun k hk => ?_) hne
        simp [held_busy,Ne.symm hk]
    · exact .refl s
  · exact .refl s

lemma get?_writeFinal (now : Time) (e : Row) (o : Outcome) (rows : KeyedTable Row Key Row.key) (k : Key) :
    (writeFinal now e o rows).get? k =
      (rows.get? k).map fun r => if r.key = e.key ∧ r.status = .processing then finalUpdate now e o r else r := by
  have hget := get?_updateWhere rows (fun r => r.key = e.key && r.status = .processing)
    (finalUpdate now e o) (finalUpdate_key now e o) k
  simpa only [Bool.and_eq_true,decide_eq_true_eq,writeFinal] using hget

lemma finish_effect : Effect s (step s (.finish i)) := by
  simp only [step]
  split
  · next table queue e o hw =>
    have hold : ∀ k, heldBy s i k = held (.busy table queue (some (e,o))) k := fun k => by simp [heldBy,hw]
    have hnew : ∀ j k, heldBy (s.setWorker i (.busy table queue none)) j k =
        if j = i then held (.busy table queue none) k else heldBy s j k := heldBy_setWorker hw
    refine .finished i e o ?_ (fun k => ?_) (fun hone => ?_) (fun j k hne => ?_) rfl
    · simp [hold,held_busy]
    · exact get?_writeFinal s.clock e o s.rows k
    · have hown := hnew i e.key
      rw [hold,held_busy] at hone
      simp only [Option.toList_some,filter_cons,decide_true,if_true,filter_nil,map_cons,
        map_nil,singleton_append,cons.injEq,true_and] at hone
      rw [held_busy,hone] at hown
      simpa [heldBy] using hown
    · refine heldBy_setWorker_other hw (fun k hk => ?_) hne
      simp [held_busy,Ne.symm hk]
  · exact .refl s

lemma step_effect (s : State) (a : Act) : Effect s (step s a) := by
  cases a with
  | tick d => exact .stutter rfl (fun _ _ => rfl) rfl
  | enqueue action now => exact enqueue_effect
  | claim i now locked => exact claim_effect
  | claimError i => exact claimError_effect
  | call i n o => exact call_effect
  | finish i => exact finish_effect
  | exit i => exact exit_effect

/-! The phases of one entry. -/

inductive Phase (s : State) (k : Key) : Prop
  | absent (hrow : s.rows.get? k = none) (hfree : ∀ i, heldBy s i k = [])
      (hfailed : failedCalls s k = 0) (hdone : succeededCalls s k = 0)
  | free (r : Row) (hrow : s.rows.get? k = some r) (hfree : ∀ i, heldBy s i k = [])
      (hfailed : failedCalls s k = r.retryCount)
      (hdone : succeededCalls s k = if r.status = .done then 1 else 0)
      (hbound : r.retryCount ≤ outboxMaxRetries) (hretry : r.status ≠ .failed → r.retryCount < outboxMaxRetries)
  | held (i : ℕ) (e : Row) (p : Option Outcome) (hrow : s.rows.get? k = some e) (hheld : heldBy s i k = [(e,p)])
      (hothers : ∀ j, j ≠ i → heldBy s j k = []) (hstatus : e.status = .processing)
      (hfailed : failedCalls s k = e.retryCount+failures p) (hdone : succeededCalls s k = successes p)
      (hretry : e.retryCount < outboxMaxRetries)

lemma Phase.frame (h : Phase s k) (hrow : s'.rows.get? k = s.rows.get? k)
    (hheld : ∀ i, heldBy s' i k = heldBy s i k) (hfailed : failedCalls s' k = failedCalls s k)
    (hdone : succeededCalls s' k = succeededCalls s k) : Phase s' k := by
  cases h with
  | absent h₁ h₂ h₃ h₄ =>
    exact .absent (hrow.trans h₁) (fun i => (hheld i).trans (h₂ i)) (hfailed.trans h₃) (hdone.trans h₄)
  | free r h₁ h₂ h₃ h₄ h₅ h₆ =>
    exact .free r (hrow.trans h₁) (fun i => (hheld i).trans (h₂ i)) (hfailed.trans h₃) (hdone.trans h₄) h₅ h₆
  | held i e p h₁ h₂ h₃ h₄ h₅ h₆ h₇ =>
    exact .held i e p (hrow.trans h₁) ((hheld i).trans h₂) (fun j hj => (hheld j).trans (h₃ j hj)) h₄
      (hfailed.trans h₅) (hdone.trans h₆) h₇

lemma Phase.holder (h : Phase s k) (hx : x ∈ heldBy s i k) :
    s.rows.get? k = some x.1 ∧ heldBy s i k = [x] ∧ (∀ j, j ≠ i → heldBy s j k = []) ∧
      x.1.status = .processing ∧ failedCalls s k = x.1.retryCount+failures x.2 ∧
      succeededCalls s k = successes x.2 ∧ x.1.retryCount < outboxMaxRetries := by
  cases h with
  | absent _ hfree | free r _ hfree =>
    rw [hfree i] at hx
    cases hx
  | held j e p hrow hheld hoth hstatus hfailed hdone hret =>
    by_cases hj : i = j
    · subst hj
      rw [hheld] at hx
      obtain rfl := mem_singleton.mp hx
      exact ⟨hrow,hheld,hoth,hstatus,hfailed,hdone,hret⟩
    · rw [hoth i hj] at hx
      cases hx

lemma calls_same (h : s'.calls = s.calls) (k : Key) :
    failedCalls s' k = failedCalls s k ∧ succeededCalls s' k = succeededCalls s k := by
  simp [failedCalls,succeededCalls,h]

lemma failedCalls_append (h : s'.calls = s.calls++[(e,o)]) :
    failedCalls s' k = failedCalls s k+if e = k then failures (some o) else 0 := by
  by_cases he : e = k <;> cases o <;> simp [failedCalls,h,failures]

lemma succeededCalls_append (h : s'.calls = s.calls++[(e,o)]) :
    succeededCalls s' k = succeededCalls s k+if e = k then successes (some o) else 0 := by
  by_cases he : e = k <;> cases o <;> simp [succeededCalls,h,successes]

lemma finalUpdate_accounts (he : e.retryCount < outboxMaxRetries) :
    (finalUpdate now e o e).retryCount = e.retryCount+failures (some o) ∧
    successes (some o) = (if (finalUpdate now e o e).status = .done then 1 else 0) ∧
    ((finalUpdate now e o e).status ≠ .failed → (finalUpdate now e o e).retryCount < outboxMaxRetries) := by
  cases o with
  | success => simp [finalUpdate,failures,successes,he]
  | failure futile error =>
    simp only [finalUpdate,failures,successes]
    refine ⟨trivial,?_,?_⟩
    · split <;> simp
    · intro hstatus
      by_contra hlast
      simp [show outboxMaxRetries ≤ e.retryCount+1 by omega] at hstatus

lemma not_due_of_held (hlease : LeaseKept s) (hx : x ∈ heldBy s i k)
    (hstatus : x.1.status = .processing) (hnow : now ≤ s.clock) : due now x.1 = false := by
  unfold heldBy at hx
  cases hw : s.workers[i]? with
  | none => simp [hw] at hx
  | some w =>
    rw [hw] at hx
    have hkept := hlease w (mem_of_getElem? hw) x (mem_of_mem_filter hx)
    have hexp := Int.lt_of_le_of_lt (Int.sub_le_sub_right hnow _) (Int.sub_right_lt_of_lt_add hkept)
    simp [due,hstatus,hexp]

lemma phase_claimed {picked : List Row} (hphase : Phase s k) (hlease : LeaseKept s)
    (hnow : now ≤ s.clock) (hdue : ∀ r ∈ picked, r ∈ s.rows.rows ∧ due now r)
    (hdistinct : (picked.map Row.key).Nodup)
    (hrows : s'.rows.get? k = (s.rows.get? k).map fun r => if r ∈ picked then r.claimed now else r)
    (hself : heldBy s' i k = (picked.filter fun r => r.key = k).map fun r => (r.claimed now,none))
    (hidle : heldBy s i k = []) (hheld : ∀ j, j ≠ i → heldBy s' j k = heldBy s j k)
    (hcalls : s'.calls = s.calls) : Phase s' k := by
  obtain ⟨hfailed,hdone⟩ := calls_same hcalls k
  -- an entry that was not picked stays as it is
  have hskip : (∀ r ∈ picked, r.key ≠ k) → Phase s' k := by
    intro hnot
    refine hphase.frame ?_ (fun j => ?_) hfailed hdone
    · rw [hrows]
      cases hrow : s.rows.get? k with
      | none => rfl
      | some r =>
        have hmem : r ∉ picked := fun hr => hnot r hr (key_of_get? hrow)
        simp [hmem]
    · by_cases hj : j = i
      · subst hj
        have hnil : picked.filter (fun r => r.key = k) = [] :=
          filter_eq_nil_iff.mpr fun r hr => by simpa using hnot r hr
        rw [hself,hidle,hnil,map_nil]
      · exact hheld j hj
  by_cases hpick : ∃ r ∈ picked, r.key = k
  · obtain ⟨r,hr,rfl⟩ := hpick
    obtain ⟨hmem,hdue⟩ := hdue r hr
    have hrow := get?_of_mem hmem
    have hone := filter_key_eq hdistinct hr
    have hopen : r.status ≠ .done ∧ r.status ≠ .failed := by
      constructor <;> intro h <;> simp [due,h] at hdue
    cases hphase with
    | absent hnone =>
      rw [hrow] at hnone
      cases hnone
    | free r' hrow' hfree hf hd _ hret =>
      obtain rfl : r = r' := Option.some.inj (hrow.symm.trans hrow')
      refine .held i (r.claimed now) none ?_ ?_ (fun j hj => (hheld j hj).trans (hfree j)) rfl
        (hfailed.trans hf) (hdone.trans (hd.trans (if_neg hopen.1))) (hret hopen.2)
      · rw [hrows,hrow,Option.map_some,if_pos hr]
      · rw [hself,hone]
        rfl
    | held j e p hrow' hheld' _ hstatus =>
      obtain rfl : r = e := Option.some.inj (hrow.symm.trans hrow')
      have hx : (r,p) ∈ heldBy s j r.key := by simp [hheld']
      have hnot := not_due_of_held hlease hx hstatus hnow
      rw [hdue] at hnot
      cases hnot
  · exact hskip fun r hr hk => hpick ⟨r,hr,hk⟩

lemma phase_called (hphase : Phase s k) (hmem : (e,none) ∈ heldBy s i e.key) (hrows : s'.rows = s.rows)
    (hself : heldBy s i e.key = [(e,none)] → heldBy s' i e.key = [(e,some o)])
    (hheld : ∀ j k, ¬ (j = i ∧ k = e.key) → heldBy s' j k = heldBy s j k)
    (hcalls : s'.calls = s.calls++[(e.key,o)]) : Phase s' k := by
  have hfailed := failedCalls_append (k:=k) hcalls
  have hdone := succeededCalls_append (k:=k) hcalls
  by_cases hk : e.key = k
  · subst hk
    obtain ⟨hrow,hone,hoth,hstatus,hf,hd,hret⟩ := hphase.holder hmem
    refine .held i e (some o) (by rw [hrows]; exact hrow) (hself hone)
      (fun j hj => (hheld j _ fun h => hj h.1).trans (hoth j hj)) hstatus ?_ ?_ hret
    · rw [hfailed,hf,if_pos rfl]
      rfl
    · rw [hdone,hd,if_pos rfl]
      exact Nat.zero_add _
  · refine hphase.frame (by rw [hrows]) (fun j => hheld j k fun h => hk h.2.symm) ?_ ?_
    · rw [hfailed,if_neg hk,Nat.add_zero]
    · rw [hdone,if_neg hk,Nat.add_zero]

lemma phase_finished (hphase : Phase s k) (hmem : (e,some o) ∈ heldBy s i e.key)
    (hrows : s'.rows.get? k = (s.rows.get? k).map fun r =>
      if r.key = e.key ∧ r.status = .processing then finalUpdate now e o r else r)
    (hself : heldBy s i e.key = [(e,some o)] → heldBy s' i e.key = [])
    (hheld : ∀ j k, ¬ (j = i ∧ k = e.key) → heldBy s' j k = heldBy s j k)
    (hcalls : s'.calls = s.calls) : Phase s' k := by
  obtain ⟨hfailed,hdone⟩ := calls_same hcalls k
  by_cases hk : e.key = k
  · subst hk
    obtain ⟨hrow,hone,hoth,hstatus,hf,hd,hret⟩ := hphase.holder hmem
    have hret : e.retryCount < outboxMaxRetries := hret
    obtain ⟨hcount,hsuccess,hopen⟩ := finalUpdate_accounts hret
    refine .free (finalUpdate now e o e) ?_ (fun j => ?_) ?_ ?_ ?_ hopen
    · rw [hrows,hrow,Option.map_some,if_pos ⟨rfl,hstatus⟩]
    · by_cases hj : j = i
      · rw [hj,hself hone]
      · rw [hheld j _ fun h => hj h.1,hoth j hj]
    · rw [hfailed,hf,hcount]
    · rw [hdone,hd,hsuccess]
    · have hstep : failures (some o) ≤ 1 := by cases o <;> simp [failures]
      omega
  · refine hphase.frame ?_ (fun j => hheld j k fun h => hk h.2.symm) hfailed hdone
    rw [hrows]
    cases hrow : s.rows.get? k with
    | none => rfl
    | some r =>
      have hne : r.key ≠ e.key := fun h => hk (h.symm.trans (key_of_get? hrow))
      rw [Option.map_some,if_neg fun h => hne h.1]

lemma phase_step (hinv : ∀ k, Phase s k) (hlease : LeaseKept s) : ∀ k, Phase (step s a) k := by
  intro k
  have hphase := hinv k
  have heff := step_effect s a
  generalize step s a = s' at heff ⊢
  cases heff with
  | stutter hrows hheld hcalls =>
    obtain ⟨hfailed,hdone⟩ := calls_same hcalls k
    exact hphase.frame (by rw [hrows]) (fun i => hheld i k) hfailed hdone
  | created r hnew hnone hrows hheld hcalls =>
    obtain ⟨hfailed,hdone⟩ := calls_same hcalls k
    by_cases hk : k = r.key
    · cases hphase with
      | absent _ hfree hf hd =>
        refine .free r (by rw [hrows,if_pos hk]) (fun i => (hheld i k).trans (hfree i)) ?_ ?_ ?_ fun _ => ?_
        · rw [hfailed,hf,hnew.2]
        · rw [hdone,hd,hnew.1]
          rfl
        · rw [hnew.2]
          exact Nat.zero_le _
        · rw [hnew.2]
          decide
      | free r' hrow | held i e p hrow =>
        rw [hk,hnone] at hrow
        cases hrow
    · exact hphase.frame (by rw [hrows,if_neg hk]) (fun i => hheld i k) hfailed hdone
  | claimed i now picked hnow hdue hdistinct hrows hself hidle hheld hcalls =>
    exact phase_claimed hphase hlease hnow hdue hdistinct (hrows k) (hself k) (hidle k)
      (fun j hj => hheld j k hj) hcalls
  | called i e o hmem hrows hself hheld hcalls => exact phase_called hphase hmem hrows hself hheld hcalls
  | finished i e o hmem hrows hself hheld hcalls => exact phase_finished hphase hmem (hrows k) hself hheld hcalls

lemma callCount_eq : callCount s k = failedCalls s k+succeededCalls s k := by
  unfold callCount failedCalls succeededCalls
  induction s.calls with
  | nil => rfl
  | cons c cs ih =>
    simp only [countP_cons,ih]
    by_cases hk : c.1 = k
    · cases ho : c.2 <;> simp [failures,successes] <;> omega
    · simp [hk]

theorem terminal_row_step (s : State) (a : Act) (hrow : s.rows.get? k = some r)
    (hter : r.status.terminal) : (step s a).rows.get? k = some r := by
  have heff := step_effect s a
  cases heff with
  | stutter hrows => rw [hrows,hrow]
  | created r' _ hnone hrows =>
    have hk : k ≠ r'.key := by
      rintro rfl
      rw [hrow] at hnone
      cases hnone
    rw [hrows,if_neg hk,hrow]
  | claimed i now picked _ hdue _ hrows =>
    have hnot : r ∉ picked := by
      intro hr
      have hd := (hdue r hr).2
      cases hs : r.status <;> simp [due,hs,Status.terminal] at hd hter
    rw [hrows,hrow,Option.map_some,if_neg hnot]
  | called _ _ _ _ hrows => rw [hrows,hrow]
  | finished i e o _ hrows =>
    have hne : ¬ (r.key = e.key ∧ r.status = .processing) := by
      rintro ⟨-,hstatus⟩
      rw [hstatus] at hter
      cases hter
    rw [hrows,hrow,Option.map_some,if_neg hne]

lemma terminal_calls_step (hphase : Phase s k) (hrow : s.rows.get? k = some r)
    (hter : r.status.terminal) : callCount (step s a) k = callCount s k := by
  have heff := step_effect s a
  cases heff with
  | stutter _ _ hcalls | created _ _ _ _ _ hcalls | claimed _ _ _ _ _ _ _ _ _ _ hcalls => simp [callCount,hcalls]
  | called i e o hmem _ _ _ hcalls =>
    have hk : e.key ≠ k := by
      rintro rfl
      obtain ⟨hrow',-,-,hstatus,-⟩ := hphase.holder hmem
      obtain rfl := Option.some.inj (hrow.symm.trans hrow')
      rw [hstatus] at hter
      cases hter
    simp [callCount,hcalls,hk]
  | finished _ _ _ _ _ _ _ hcalls => simp [callCount,hcalls]

/-- Some worker has a failed call for this entry that its final update has not recorded yet. -/
def Unwritten (s : State) (k : Key) : Prop := ∃ i, ∃ x ∈ heldBy s i k, failures x.2 = 1

structure Safe (s : State) : Prop where
  owner : ∀ i j k, heldBy s i k ≠ [] → heldBy s j k ≠ [] → i = j
  calls : ∀ k, callCount s k ≤ outboxMaxRetries
  retries : ∀ r ∈ s.rows.rows, (Unwritten s r.key → failedCalls s r.key = r.retryCount+1) ∧
    (¬ Unwritten s r.key → failedCalls s r.key = r.retryCount)

lemma failures_add_successes_le (p : Option Outcome) : failures p+successes p ≤ 1 := by
  rcases p with _ | o
  · simp [failures,successes]
  · cases o <;> simp [failures,successes]

lemma safe_of_phases (h : ∀ k, Phase s k) : Safe s where
  owner := by
    intro i j k hi hj
    obtain ⟨x,hx⟩ := exists_mem_of_ne_nil _ hi
    by_contra hne
    exact hj (((h k).holder hx).2.2.1 j (Ne.symm hne))
  calls := by
    intro k
    rw [callCount_eq]
    cases h k with
    | absent _ _ hf hd => omega
    | free r _ _ hf hd hbound hret =>
      rw [hf,hd]
      split
      · next hs => exact hret (by simp [hs])
      · omega
    | held i e p _ _ _ _ hf hd hret =>
      have hone := failures_add_successes_le p
      omega
  retries := by
    intro r hr
    have hrow := get?_of_mem hr
    constructor
    · rintro ⟨i,x,hx,hfail⟩
      obtain ⟨hrow',-,-,-,hf,-⟩ := (h r.key).holder hx
      obtain rfl := Option.some.inj (hrow.symm.trans hrow')
      rw [hf,hfail]
    · intro hnone
      cases h r.key with
      | absent habs =>
        rw [hrow] at habs
        cases habs
      | free r' hrow' _ hf =>
        obtain rfl := Option.some.inj (hrow.symm.trans hrow')
        exact hf
      | held i e p hrow' hheld _ _ hf =>
        obtain rfl := Option.some.inj (hrow.symm.trans hrow')
        have hquiet : failures p ≠ 1 := fun hfail => hnone ⟨i,(r,p),by simp [hheld],hfail⟩
        have hone := failures_add_successes_le p
        omega

lemma init_phases (k : Key) : Phase (init n) k := by
  refine .absent rfl (fun i => ?_) rfl rfl
  by_cases hi : i < n <;> simp [heldBy,init,hi]

/-- While leases are kept an entry has one owner and at most ten calls. -/
theorem outbox_safe (n : ℕ) (acts : List Act) (h : Always step LeaseKept (init n) acts) :
    Always step Safe (init n) acts ∧
    ∀ xs ys, acts = xs++ys → ∀ k r, (run step (init n) xs).rows.get? k = some r → r.status.terminal = true →
      ((run step (init n) acts).rows.get? k).map Row.status = some r.status ∧
      callCount (run step (init n) acts) k = callCount (run step (init n) xs) k := by
  have hphases : Always step (fun s => ∀ k, Phase s k) (init n) acts :=
    always_of_step (fun s a hp hl => phase_step hp hl) init_phases h
  refine ⟨hphases.mono fun s => safe_of_phases,?_⟩
  rintro xs ys rfl k r hrow hter
  have hrest := always_of_step
    (I:=fun s => (∀ k, Phase s k) ∧ s.rows.get? k = some r ∧ callCount s k = callCount (run step (init n) xs) k)
    (fun s a hs hl => ⟨phase_step hs.1 hl,terminal_row_step s a hs.2.1 hter,
      (terminal_calls_step (hs.1 k) hs.2.1 hter).trans hs.2.2⟩)
    ⟨hphases.of_append.here,hrow,rfl⟩ h.of_append
  obtain ⟨-,hkept,hcount⟩ := hrest.last
  rw [run_append]
  exact ⟨by rw [hkept,Option.map_some],hcount⟩

def claimSettles (i : ℕ) (now : Time) : List Act := [.claim i now [],.claim i now []]

def firstSettle : Key := (.billingOutbox,1)

def retriedRun : List Act :=
  [.enqueue (.settle 9) 0]++claimSettles 0 0++[.call 0 0 (.failure false "timeout"),.finish 0,.tick 10000000]++
    claimSettles 1 10000000++[.call 1 0 .success,.finish 1]

theorem outbox_safe_retried :
    Always step LeaseKept (init 2) retriedRun ∧ callCount (run step (init 2) retriedRun) firstSettle ≤ 10 := by
  have hlease : Always step LeaseKept (init 2) retriedRun := by decide
  exact ⟨hlease,(outbox_safe 2 retriedRun hlease).1.last.calls firstSettle⟩

/-- No worker holds an entry longer than the lease; exactly as long is allowed. -/
def LeaseNotExceeded (s : State) : Prop := ∀ w ∈ s.workers, ∀ x ∈ holds w, s.clock ≤ x.1.updatedAt+outboxClaimLease
  deriving Decidable

def unwrittenRun : List Act := [.enqueue (.settle 9) 0]++claimSettles 0 0++[.call 0 0 (.failure false "timeout")]

def boundaryRun : List Act := [.enqueue (.settle 9) 0]++claimSettles 0 0++[.tick 300000000]++claimSettles 1 300000000

theorem lag_and_boundary : (Always step LeaseKept (init 2) unwrittenRun ∧
      failedCalls (run step (init 2) unwrittenRun) firstSettle = 1 ∧
      ((run step (init 2) unwrittenRun).rows.get? firstSettle).map Row.retryCount = some 0) ∧
    (Always step LeaseNotExceeded (init 2) boundaryRun ∧
      heldBy (run step (init 2) boundaryRun) 0 firstSettle ≠ [] ∧
      heldBy (run step (init 2) boundaryRun) 1 firstSettle ≠ []) := by decide

/-! Without the lease. -/

lemma finish_row
    (hcalled : s.workers[i]? = some (.busy table queue (some (e,o)))) (hrow : s.rows.get? e.key = some r) :
    (step s (.finish i)).rows.get? e.key =
      some (if r.status = .processing then finalUpdate s.clock e o r else r) := by
  have hget := get?_writeFinal s.clock e o s.rows e.key
  have hkey : r.key = e.key := key_of_get? hrow
  simp only [hrow,Option.map_some,hkey,true_and] at hget
  simpa only [step,hcalled] using hget

theorem success_recorded (n : ℕ) (xs ys : List Act) (i : ℕ) (table : Table) (queue : List Row) (e r : Row)
    (hcalled : (run step (init n) xs).workers[i]? = some (.busy table queue (some (e,.success))))
    (hrow : (run step (init n) xs).rows.get? e.key = some r) : (r.status = .processing →
      ((run step (init n) (xs++Act.finish i::ys)).rows.get? e.key).map Row.status = some .done) ∧
    (r.status ≠ .processing → (step (run step (init n) xs) (.finish i)).rows.get? e.key = some r) := by
  rw [run_append,run_cons]
  generalize run step (init n) xs = s at *
  have hwritten := finish_row hcalled hrow
  constructor
  · intro hstatus
    rw [if_pos hstatus] at hwritten
    have hkept := run_stable (I:=fun t => t.rows.get? e.key = some (finalUpdate s.clock e .success r))
      (fun t a ht => terminal_row_step t a ht rfl) ys hwritten
    rw [hkept]
    rfl
  · intro hstatus
    rw [hwritten,if_neg hstatus]

def parkedSettle (updatedAt : Time) : Row := ⟨1,.settle 9,.processing,0,0,updatedAt,""⟩

theorem success_recorded_late :
    ((run step (init 2) ((boundaryRun++[.call 0 0 .success])++Act.finish 0::[.call 1 0 (.failure true "409"),
      .finish 1])).rows.get? (parkedSettle 0).key).map Row.status = some .done := by
  have hcalled : (run step (init 2) (boundaryRun++[.call 0 0 .success])).workers[0]? =
      some (.busy .billingOutbox [] (some (parkedSettle 0,.success))) := by decide
  have hrow : (run step (init 2) (boundaryRun++[.call 0 0 .success])).rows.get? (parkedSettle 0).key =
      some (parkedSettle 300000000) := by decide
  exact (success_recorded 2 _ _ 0 _ _ _ _ hcalled hrow).1 rfl

/-- Worker 1 has taken over the entry after its lease; it fails before worker 0 succeeds. -/
def overtakenRun (futile : Bool) : List Act :=
  boundaryRun++[.call 1 0 (.failure futile "409"),.finish 1,.call 0 0 .success,.finish 0]

/-- The platform answered success, worker 0 is through with the entry, and the entry's status does not
say so: it is back in 'pending', or 'failed' on the platform's verdict. -/
def SuccessLost (futile : Bool) : Prop :=
  let s := run step (init 2) (overtakenRun futile)
  (firstSettle,Outcome.success) ∈ s.calls ∧ s.workers[0]? = some (.busy .billingOutbox [] none) ∧
    (s.rows.get? firstSettle).map Row.status = some (if futile then .failed else .pending)
  deriving Decidable

theorem success_unrecorded : SuccessLost false ∧ SuccessLost true := by
  decide

end LurusHub.OutboxSafety
