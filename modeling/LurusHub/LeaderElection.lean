import LurusHub.Transition
import Mathlib.Data.Int.Notation

/-! Leader election over one lease row. A node renews the row or takes it over once expired, and
keeps a flag that only its steps change. While the database fails, the flag stays until the first
step after the node's own estimate of the lease has run out. -/
namespace LurusHub.LeaderElection
open Transition Function

structure Lease where
  holderId : String
  (acquiredAt renewedAt expiresAt : ℤ)
  deriving DecidableEq, Repr

inductive LeaseError
  | holderRequired
  | ttlNotPositive (ttl : ℤ)
  | database
  deriving DecidableEq, Repr

/-- The conditional update, and an insert if there is no row at all. -/
def tryAcquireOrRenew (fails : Bool) (row : Option Lease) (holderId : String) (ttl now : ℤ) :
    Except LeaseError (Option Lease × Bool) :=
  if holderId = "" then .error .holderRequired
  else if ttl ≤ 0 then .error (.ttlNotPositive ttl)
  else if fails then .error .database
  else match row with
    | some lease =>
      if lease.holderId = holderId ∨ lease.expiresAt < now then
        .ok (some { lease with holderId, renewedAt := now, expiresAt := now+ttl },true)
      else .ok (some lease,false)
    | none => .ok (some ⟨holderId,now,now,now+ttl⟩,true)

def releaseLease (fails : Bool) (row : Option Lease) (holderId : String) : Option Lease :=
  if fails then row
  else row.map fun lease => if lease.holderId = holderId then { lease with expiresAt := 0 } else lease

structure Cluster where
  now : ℤ
  row : Option Lease
  isLeader : String → Bool
  (localExpiry lastStep : String → ℤ)
  stopped : String → Bool

def managerStep (ttl : ℤ) (s : Cluster) (id : String) (fails : Bool) : Cluster :=
  let s := { s with lastStep := Function.update s.lastStep id s.now }
  match tryAcquireOrRenew fails s.row id ttl s.now with
  | .error _ =>
    if s.isLeader id ∧ s.localExpiry id ≤ s.now then { s with isLeader := Function.update s.isLeader id false } else s
  | .ok (row,true) =>
    { s with
      row
      localExpiry := Function.update s.localExpiry id (s.now+ttl)
      isLeader := Function.update s.isLeader id true }
  | .ok (row,false) => { s with row, isLeader := Function.update s.isLeader id false }

def shutdown (s : Cluster) (id : String) (fails : Bool) : Cluster :=
  let s := { s with stopped := Function.update s.stopped id true }
  if s.isLeader id then
    { s with row := releaseLease fails s.row id, isLeader := Function.update s.isLeader id false }
  else s

inductive Label
  | tick
  | step (id : String) (fails : Bool)
  | shutdown (id : String) (fails : Bool)
  deriving DecidableEq, Repr

def step (ttl : ℤ) (s : Cluster) : Label → Cluster
  | .tick => { s with now := s.now+1 }
  | .step id fails => managerStep ttl s id fails
  | .shutdown id fails => LeaderElection.shutdown s id fails

def renewEvery (ttl : ℤ) : ℤ := ttl/3

/-- Nobody leads; the row may be anyone's. -/
def start (now : ℤ) (row : Option Lease) : Cluster := ⟨now,row,fun _ => false,fun _ => 0,fun _ => now,fun _ => false⟩

/-- Only running nodes of the cluster act, and the clock waits for each of them to step in time. -/
def Steady (ttl : ℤ) (nodes : List String) (s : Cluster) : Label → Prop
  | .tick => ∀ id ∈ nodes, s.stopped id = false → s.now+1 ≤ s.lastStep id+renewEvery ttl
  | .step id _ | .shutdown id _ => id ∈ nodes ∧ s.stopped id = false

instance (ttl : ℤ) (nodes : List String) (s : Cluster) : ∀ l, Decidable (Steady ttl nodes s l)
  | .tick => inferInstanceAs (Decidable (∀ id ∈ nodes, _))
  | .step _ _ | .shutdown _ _ => inferInstanceAs (Decidable (_ ∧ _))

def InLease (s : Cluster) (id : String) : Prop := s.now ≤ s.localExpiry id

def Exclusive (s : Cluster) : Prop := ∀ a b, s.isLeader a = true → s.isLeader b = true → a = b

/-- No database access succeeds while the flag of another node is up past the end of its lease. -/
def Undisputed (nodes : List String) (s : Cluster) : Label → Prop
  | .step id false => ∀ b ∈ nodes, b ≠ id → s.isLeader b = true → InLease s b
  | .tick | .step _ true | .shutdown _ _ => True

instance (nodes : List String) (s : Cluster) : ∀ l, Decidable (Undisputed nodes s l)
  | .step id false => inferInstanceAs (Decidable (∀ b ∈ nodes, b ≠ id → s.isLeader b = true → s.now ≤ s.localExpiry b))
  | .tick | .step _ true | .shutdown _ _ => inferInstanceAs (Decidable True)

structure Leads (ttl : ℤ) (nodes : List String) (s : Cluster) (id : String) : Prop where
  mem : id ∈ nodes
  running : s.stopped id = false
  positive : 0 < ttl
  holds : InLease s id → ∃ lease, s.row = some lease ∧ lease.holderId = id ∧ lease.expiresAt = s.localExpiry id
  stepped : s.lastStep id < s.localExpiry id
  recent : s.now ≤ s.lastStep id+renewEvery ttl

def Held (ttl : ℤ) (nodes : List String) (s : Cluster) : Prop := ∀ id, s.isLeader id = true → Leads ttl nodes s id

section
variable {id : String}

lemma tryAcquireOrRenew_won (h : tryAcquireOrRenew fails row id ttl now = .ok (row',true)) :
    0 < ttl ∧ (∃ lease, row' = some lease ∧ lease.holderId = id ∧ lease.expiresAt = now+ttl) ∧
    ∀ lease, row = some lease → lease.holderId = id ∨ lease.expiresAt < now := by
  unfold tryAcquireOrRenew at h
  split_ifs at h with hid httl hfails
  have hpos : 0 < ttl := Int.not_le.mp httl
  cases row with
  | none =>
    simp only [Except.ok.injEq,Prod.mk.injEq,and_true] at h
    exact ⟨hpos,⟨_,h.symm,rfl,rfl⟩,by simp⟩
  | some lease =>
    by_cases hfree : lease.holderId = id ∨ lease.expiresAt < now
    · simp only [hfree,if_true,Except.ok.injEq,Prod.mk.injEq,and_true] at h
      refine ⟨hpos,⟨_,h.symm,rfl,rfl⟩,?_⟩
      rintro _ ⟨⟩
      exact hfree
    · simp [hfree] at h

lemma tryAcquireOrRenew_lost
    (h : tryAcquireOrRenew fails row id ttl now = .ok (row',false)) : row' = row := by
  unfold tryAcquireOrRenew at h
  split_ifs at h
  cases row with
  | none => simp at h
  | some lease =>
    by_cases hfree : lease.holderId = id ∨ lease.expiresAt < now
    · simp [hfree] at h
    · simp only [hfree,if_false,Except.ok.injEq,Prod.mk.injEq,and_true] at h
      exact h.symm

lemma Leads.frame (h : Leads ttl nodes s id) (hnow : s'.now = s.now)
    (hexpi : s'.localExpiry id = s.localExpiry id) (hlast : s'.lastStep id = s.lastStep id)
    (hrun : s'.stopped id = s.stopped id)
    (hrow : ∀ lease, s.row = some lease → lease.holderId = id → s.now ≤ lease.expiresAt → s'.row = some lease) :
    Leads ttl nodes s' id where
  mem := h.mem
  running := hrun.trans h.running
  positive := h.positive
  holds := by
    intro hin
    unfold InLease at hin
    rw [hnow,hexpi] at hin
    obtain ⟨lease,hlease,hhol,hexp⟩ := h.holds hin
    refine ⟨lease,hrow lease hlease hhol ?_,hhol,?_⟩
    · rw [hexp]
      exact hin
    · rw [hexp,hexpi]
  stepped := by rw [hlast,hexpi]; exact h.stepped
  recent := by rw [hnow,hlast]; exact h.recent

lemma renewEvery_nonneg (h : 0 < ttl) : 0 ≤ renewEvery ttl := by
  unfold renewEvery
  omega

lemma managerStep_isLeader_of_ne (hbid : b ≠ id) :
    (managerStep ttl s id fails).isLeader b = s.isLeader b := by
  unfold managerStep
  cases htry : tryAcquireOrRenew fails s.row id ttl s.now with
  | error e => by_cases hlap : s.isLeader id ∧ s.localExpiry id ≤ s.now <;> simp [htry,hlap,hbid]
  | ok result =>
    obtain ⟨row,won⟩ := result
    cases won <;> simp [htry,hbid]

lemma managerStep_other (hbid : b ≠ id) (h : Leads ttl nodes s b) :
    Leads ttl nodes (managerStep ttl s id fails) b := by
  unfold managerStep
  cases htry : tryAcquireOrRenew fails s.row id ttl s.now with
  | error e =>
    by_cases hlap : s.isLeader id ∧ s.localExpiry id ≤ s.now
    · simp only [htry,hlap]
      exact h.frame rfl rfl (by simp [hbid]) rfl fun _ hrow _ _ => hrow
    · simp only [htry,hlap]
      exact h.frame rfl rfl (by simp [hbid]) rfl fun _ hrow _ _ => hrow
  | ok result =>
    obtain ⟨row,won⟩ := result
    cases won with
    | true =>
      simp only [htry]
      obtain ⟨-,-,hfree⟩ := tryAcquireOrRenew_won htry
      refine h.frame rfl (by simp [hbid]) (by simp [hbid]) rfl ?_
      intro old hold hb hval
      rcases hfree old hold with hself | hexpired
      · exact absurd (hb.symm.trans hself) hbid
      · omega
    | false =>
      simp only [htry]
      have hsame := tryAcquireOrRenew_lost htry
      exact h.frame rfl rfl (by simp [hbid]) rfl fun old hold _ _ => hsame.trans hold

section
variable (h : Held ttl nodes s)
include h

theorem managerStep_self (hmem : id ∈ nodes) (hrun : s.stopped id = false)
    (hid : (managerStep ttl s id fails).isLeader id) : Leads ttl nodes (managerStep ttl s id fails) id := by
  unfold managerStep at hid ⊢
  cases htry : tryAcquireOrRenew fails s.row id ttl s.now with
  | error e =>
    simp only [htry] at hid ⊢
    by_cases hlap : s.isLeader id ∧ s.localExpiry id ≤ s.now
    · simp [hlap] at hid
    · simp only [hlap,if_false] at hid ⊢
      have hlead := h id hid
      have hbefore : s.now < s.localExpiry id := Int.not_le.mp fun hle => hlap ⟨hid,hle⟩
      have hnonneg := renewEvery_nonneg hlead.positive
      refine ⟨hlead.mem,hlead.running,hlead.positive,hlead.holds,?_,?_⟩
      · simpa using hbefore
      · simp only [update_self]
        omega
  | ok result =>
    obtain ⟨row,won⟩ := result
    cases won with
    | true =>
      simp only [htry]
      obtain ⟨hpos,⟨lease,hlease,hhol,hexp⟩,-⟩ := tryAcquireOrRenew_won htry
      have hnonneg := renewEvery_nonneg hpos
      refine ⟨hmem,hrun,hpos,fun _ => ⟨lease,hlease,hhol,by simpa using hexp⟩,?_,?_⟩
      · simp only [update_self]
        omega
      · simp only [update_self]
        omega
    | false => simp [htry] at hid

lemma managerStep_held (hmem : id ∈ nodes) (hrun : s.stopped id = false) :
    Held ttl nodes (managerStep ttl s id fails) := by
  intro b hb
  by_cases hbid : b = id
  · subst hbid
    exact managerStep_self h hmem hrun hb
  · rw [managerStep_isLeader_of_ne hbid] at hb
    exact managerStep_other hbid (h b hb)

lemma shutdown_held : Held ttl nodes (shutdown s id fails) := by
  intro b hb
  unfold shutdown at hb ⊢
  by_cases hlead : s.isLeader id
  · simp only [hlead,if_true] at hb ⊢
    by_cases hbid : b = id
    · simp [hbid] at hb
    · simp only [ne_eq,hbid,not_false_eq_true,update_of_ne] at hb
      refine (h b hb).frame rfl rfl rfl (by simp [hbid]) ?_
      intro old hold hb' _
      have hother : old.holderId ≠ id := fun heq => hbid (hb'.symm.trans heq)
      cases fails <;> simp [releaseLease,hold,hother]
  · simp only [hlead] at hb ⊢
    have hbid : b ≠ id := fun heq => hlead (heq ▸ hb)
    exact (h b hb).frame rfl rfl rfl (by simp [hbid]) fun _ hrow _ _ => hrow

lemma step_held (hsteady : Steady ttl nodes s l) : Held ttl nodes (step ttl s l) := by
  cases l with
  | tick =>
    intro b hb
    have hlead := h b hb
    refine ⟨hlead.mem,hlead.running,hlead.positive,fun hin => hlead.holds ?_,hlead.stepped,
      hsteady b hlead.mem hlead.running⟩
    unfold InLease step at hin
    unfold InLease
    simp only at hin
    omega
  | step id fails => exact managerStep_held h hsteady.1 hsteady.2
  | shutdown id fails => exact shutdown_held h

lemma Held.unique (ha : s.isLeader a) (hb : s.isLeader b)
    (hina : InLease s a) (hinb : InLease s b) : a = b := by
  obtain ⟨lease,hrow,hhol,-⟩ := (h a ha).holds hina
  obtain ⟨lease',hrow',hhol',-⟩ := (h b hb).holds hinb
  have hsame : lease = lease' := Option.some.inj (hrow.symm.trans hrow')
  rw [← hhol,← hhol',hsame]

lemma Held.lapsed (ha : s.isLeader a) : s.now-s.localExpiry a < renewEvery ttl := by
  have hlead := h a ha
  have hste := hlead.stepped
  have hrece := hlead.recent
  omega

end

lemma managerStep_led (hid : (managerStep ttl s id fails).isLeader id) :
    s.isLeader id ∨ fails = false ∧ ∀ lease, s.row = some lease → lease.holderId = id ∨ lease.expiresAt < s.now := by
  unfold managerStep at hid
  cases htry : tryAcquireOrRenew fails s.row id ttl s.now with
  | error e =>
    simp only [htry] at hid
    split at hid
    · simp at hid
    · exact .inl hid
  | ok result =>
    obtain ⟨row,won⟩ := result
    cases won with
    | true =>
      refine .inr ⟨?_,(tryAcquireOrRenew_won htry).2.2⟩
      cases fails with
      | false => rfl
      | true =>
        unfold tryAcquireOrRenew at htry
        split_ifs at htry with _ _ hfails
        exact absurd rfl hfails
    | false => simp [htry] at hid

lemma step_exclusive (h : Held ttl nodes s) (hund : Undisputed nodes s l) (hexc : Exclusive s) :
    Exclusive (step ttl s l) := by
  cases l with
  | tick => exact hexc
  | shutdown id fails =>
    have hkept : ∀ a, (shutdown s id fails).isLeader a = true → s.isLeader a = true := by
      intro a ha
      unfold shutdown at ha
      by_cases hlead : s.isLeader id <;> by_cases haid : a = id <;> simp_all
    exact fun a b ha hb => hexc a b (hkept a ha) (hkept b hb)
  | step id fails =>
    -- the node that has just stepped leads beside no other
    have halone : ∀ b, b ≠ id → s.isLeader b = true → (managerStep ttl s id fails).isLeader id ≠ true := by
      intro b hbid hb hid
      rcases managerStep_led hid with hled | ⟨rfl,hfree⟩
      · exact hbid (hexc b id hb hled)
      · have hin := hund b (h b hb).mem hbid hb
        obtain ⟨lease,hrow,hhol,hexp⟩ := (h b hb).holds hin
        rcases hfree lease hrow with hself | hpast
        · exact hbid (hhol.symm.trans hself)
        · exact absurd (hexp ▸ hpast) (Int.not_lt.mpr hin)
    intro a b ha hb
    change (managerStep ttl s id fails).isLeader _ = true at ha hb
    by_cases haid : a = id <;> by_cases hbid : b = id
    · exact haid.trans hbid.symm
    · rw [managerStep_isLeader_of_ne hbid] at hb
      exact absurd (haid ▸ ha) (halone b hbid hb)
    · rw [managerStep_isLeader_of_ne haid] at ha
      exact absurd (hbid ▸ hb) (halone a haid ha)
    · rw [managerStep_isLeader_of_ne haid] at ha
      rw [managerStep_isLeader_of_ne hbid] at hb
      exact hexc a b ha hb

/-- One leader at most is within its lease; past it none leads for longer than a step. -/
theorem leaders_within_lease (ttl : ℤ) (nodes : List String) (now : ℤ) (row : Option Lease) (ls : List Label)
    (hsteady : Along (step ttl) (Steady ttl nodes) (start now row) ls) :
    Always (step ttl) (fun s =>
      (∀ a b, s.isLeader a = true → s.isLeader b = true → InLease s a → InLease s b → a = b) ∧
      ∀ a, s.isLeader a = true → s.now-s.localExpiry a < renewEvery ttl) (start now row) ls ∧
    (Along (step ttl) (Undisputed nodes) (start now row) ls → Always (step ttl) Exclusive (start now row) ls) := by
  have hstart : Held ttl nodes (start now row) := by
    intro id hid
    simp [start] at hid
  refine ⟨?_,fun hund => ?_⟩
  · have hheld := always_of_along (I := Held ttl nodes) (fun _ _ h hg => step_held h hg) hstart hsteady
    exact hheld.mono fun s h => ⟨fun a b ha hb => h.unique ha hb,fun a ha => h.lapsed ha⟩
  · have hboth := always_of_along (I := fun s => Held ttl nodes s ∧ Exclusive s)
      (fun _ _ h hg => ⟨step_held h.1 hg.1,step_exclusive h.1 hg.2 h.2⟩) ⟨hstart,fun a _ ha => by simp [start] at ha⟩
      (hsteady.and hund)
    exact hboth.mono fun _ h => h.2

end

/-- Two nodes on a lease of 30 seconds; the database fails the first one's steps at 9, 19 and 29
seconds. -/
def failingLeader : List Label :=
  [.step "a" false,.step "b" false]++List.replicate 9 .tick++[.step "a" true,.step "b" false]++List.replicate 10 .tick++
    [.step "a" true,.step "b" false]++List.replicate 10 .tick++[.step "a" true,.step "b" false]

/-- The first one steps once more when its lease ends, and the second takes the lease after that. -/
def handover : List Label := failingLeader++[.tick,.step "a" true,.tick,.step "b" false]

theorem leaders_within_lease_handover :
    let s := run (step 30) (start 0 none) handover
    s.isLeader "b" = true ∧ ∀ a, s.isLeader a = true → a = "b" := by
  have hsteady : Along (step 30) (Steady 30 ["a","b"]) (start 0 none) handover := by decide +kernel
  have hund : Along (step 30) (Undisputed ["a","b"]) (start 0 none) handover := by decide +kernel
  have hb : (run (step 30) (start 0 none) handover).isLeader "b" = true := by decide +kernel
  have hexc := ((leaders_within_lease 30 ["a","b"] 0 none handover hsteady).2 hund).last
  exact ⟨hb,fun a ha => hexc a "b" ha hb⟩

theorem two_leaders :
    let takeover := failingLeader++[.tick,.tick,.step "b" false]
    Along (step 30) (Steady 30 ["a","b"]) (start 0 none) takeover ∧
    (run (step 30) (start 0 none) takeover).isLeader "a" = true ∧
    (run (step 30) (start 0 none) takeover).isLeader "b" = true := by decide +kernel

end LurusHub.LeaderElection
