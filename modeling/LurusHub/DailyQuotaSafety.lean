import LurusHub.DailyQuota

/-! What the lazy reset keeps. The counter agrees with the day's amounts as long as every reset that
takes effect comes before the day's first consumption; an exhausted user stays on the fallback group
as long as no restore finds them exhausted. -/
namespace LurusHub.DailyQuota
open Transition Call Option

structure WellTimed (s : State) : Prop where
  row : ∀ userId, ∀ u ∈ s.users.get? userId, u.lastDailyReset ≤ s.clock
  call : ∀ userId now caller, Call.reset userId now caller ∈ s.calls → now ≤ s.clock

theorem write_lastDailyReset (a : Act) (u : User) :
    (a.write s uid u).lastDailyReset = u.lastDailyReset ∨
      ∃ now, (∃ caller, Call.reset uid now caller ∈ s.calls) ∧ u.lastDailyReset < todayStart now ∧
        (a.write s uid u).lastDailyReset = now := by
  cases a with
  | postConsumeDailyQuota => simp only [Act.write]; split <;> exact .inl rfl
  | advance i =>
    cases h : s.calls[i]? with
    | none => simp [Act.write,h]
    | some call =>
      have hmem := List.mem_of_getElem? h
      cases call with
      | reset id now caller =>
        simp only [Act.write,h,write]
        split
        · next hid => exact .inr ⟨now,⟨caller,hid.1 ▸ hmem⟩,hid.2,rfl⟩
        · exact .inl rfl
      | switchWrite | restoreWrite =>
        simp only [Act.write,h,write]
        split <;> exact .inl rfl
      | postCheck | switchRead | process | restoreRead | cron | check | recheck =>
        exact .inl (by simp [Act.write,h,write])
  | tick | processDailyQuotaReset | processDailyQuotaResets | checkAndHandleDailyQuotaExhaustion | fault =>
    exact .inl rfl

variable {s : State}

lemma WellTimed.step (h : WellTimed s) (a : Act) : WellTimed (step s a) := by
  have hclock : s.clock ≤ (DailyQuota.step s a).clock := by simp [step_clock]
  constructor
  · intro uid u hu
    rw [step_get?,mem_def,map_eq_some_iff] at hu
    obtain ⟨old,hold,rfl⟩ := hu
    rcases write_lastDailyReset a old with hl | ⟨now,⟨caller,hmem⟩,_,hl⟩
    · exact hl ▸ (h.row uid old hold).trans hclock
    · exact hl ▸ (h.call uid now caller hmem).trans hclock
  · intro uid now caller hmem
    rcases (mem_step_calls s a _).1 hmem with hold | hnew
    · exact (h.call uid now caller hold).trans hclock
    · have hread : now = s.clock := entered_of_mem_opens hnew
      exact hread.trans_le hclock

lemma wellTimed_of_rows (hcalls : s.calls = []) (h : ∀ u ∈ s.users.rows, u.lastDailyReset ≤ s.clock) : WellTimed s :=
  ⟨fun _ u hu => h u (KeyedTable.mem_of_get? hu),by simp [hcalls]⟩

/-! The counter. -/

def ResetToday (s : State) (u : User) : Prop := day u.lastDailyReset = day s.clock
  deriving Decidable

def passedToday (s : State) (userId : ℕ) : ℤ :=
  ((s.passed.filter fun p => p.userId = userId ∧ day p.time = day s.clock).map Passed.amount).sum

/-- Once reset on the current day, the counter is the sum of the day's amounts. -/
def Counted (userId : ℕ) (s : State) : Prop :=
  ∀ u ∈ s.users.get? userId, ResetToday s u → u.dailyUsed = passedToday s userId
  deriving Decidable

/-- A reset of the day that takes effect finds nothing consumed since midnight. -/
def FindsNothing (userId : ℕ) (s : State) : Call → Prop
  | .reset id now _ => id = userId → day now = day s.clock →
    ∀ u ∈ s.users.get? userId, u.lastDailyReset < todayStart now → passedToday s userId = 0
  | _ => True

instance (userId : ℕ) (s : State) : ∀ call, Decidable (FindsNothing userId s call)
  | .reset .. => inferInstanceAs (Decidable (_ → _ → ∀ u ∈ s.users.get? userId, _))
  | .postCheck _ | .switchRead _ | .switchWrite .. | .process .. | .restoreRead .. | .restoreWrite .. | .cron _
  | .check .. | .recheck .. => isTrue trivial

/-- Resets of the day that take effect find nothing consumed since midnight; amounts for a user
reset on this day are not negative and their increments do not fail. -/
def Uncrossed (userId : ℕ) (s : State) : Act → Prop
  | .postConsumeDailyQuota id quotaConsumed fails => id = userId →
    ∀ u ∈ s.users.get? userId, ResetToday s u → quotaConsumed = 0 ∨ 0 < quotaConsumed ∧ fails = false
  | .advance i => ∀ call ∈ s.calls[i]?, FindsNothing userId s call
  | _ => True

instance (userId : ℕ) (s : State) : ∀ a, Decidable (Uncrossed userId s a)
  | .postConsumeDailyQuota .. => inferInstanceAs (Decidable (_ → ∀ u ∈ s.users.get? userId, _))
  | .advance i => inferInstanceAs (Decidable (∀ call ∈ s.calls[i]?, FindsNothing userId s call))
  | .tick _ | .processDailyQuotaReset _ | .processDailyQuotaResets _ | .checkAndHandleDailyQuotaExhaustion .. | .fault _ =>
    isTrue trivial

lemma passedToday_step (a : Act) (hday : day (step s a).clock = day s.clock) :
    passedToday (step s a) uid = passedToday s uid+
      (((a.passes s).filter fun p => p.userId = uid ∧ day p.time = day s.clock).map Passed.amount).sum := by
  simp [passedToday,step_passed,hday]

lemma counted_some (hu : s.users.get? uid = some u) :
    Counted uid s ↔ (ResetToday s u → u.dailyUsed = passedToday s uid) := by
  simp [Counted,hu]

lemma counted_frame (hrow : ∀ u ∈ s.users.get? uid, (a.write s uid u).dailyUsed = u.dailyUsed ∧
      (a.write s uid u).lastDailyReset = u.lastDailyReset)
    (hpas : a.passes s = []) (hsti : a.seconds = 0) (h : Counted uid s) : Counted uid (step s a) := by
  have hday : day (step s a).clock = day s.clock := by rw [step_clock,hsti,Nat.add_zero]
  intro u' hu' hres
  rw [step_get?,mem_def,map_eq_some_iff] at hu'
  obtain ⟨u,hu,rfl⟩ := hu'
  rw [ResetToday,(hrow u hu).2,hday] at hres
  simp [passedToday_step a hday,hpas,(hrow u hu).1,h u hu hres]

lemma counted_tick (ht : WellTimed s) (h : Counted uid s) :
    Counted uid (step s (.tick seconds)) := by
  intro u hu hres
  have hrow := ht.row uid u hu
  have hday : day (s.clock+seconds) = day s.clock := by
    simp only [ResetToday,step,day] at hres ⊢
    omega
  refine (h u hu ?_).trans ?_
  · exact hres.trans hday
  · simp [passedToday_step (.tick seconds) hday,Act.passes]

lemma counted_postConsume_iff {id : ℕ} (h : Counted uid s) :
    Counted uid (step s (.postConsumeDailyQuota id used fails)) ↔
      Uncrossed uid s (.postConsumeDailyQuota id used fails) := by
  set a := Act.postConsumeDailyQuota id used fails with ha
  cases hu : s.users.get? uid with
  | none => simp [Counted,step_get?,hu,Uncrossed,ha]
  | some u =>
    have hday : day (step s a).clock = day s.clock := by simp [step_clock,Act.seconds]
    have hu' : (step s a).users.get? uid = some (a.write s uid u) := by rw [step_get?,hu]; rfl
    have hlast : (a.write s uid u).lastDailyReset = u.lastDailyReset := by
      simp only [ha,Act.write]
      split <;> rfl
    rw [counted_some hu] at h
    rw [counted_some hu',passedToday_step a hday,ResetToday,hday]
    simp only [ha,Act.passes,Act.write,Uncrossed,hu,mem_def,some.injEq,forall_eq',ResetToday] at h ⊢
    by_cases hid : id = uid
    · by_cases hq : 0 < used ∧ fails = false
      · simp [hid,hq]
        intro hr
        simp [h hr]
      · grind
    · simp [hid]
      exact h

lemma counted_reset_iff {i id now : ℕ}
    (hi : s.calls[i]? = some (.reset id now caller)) (h : Counted uid s) :
    Counted uid (step s (.advance i)) ↔ Uncrossed uid s (.advance i) := by
  cases hu : s.users.get? uid with
  | none => simp [Counted,step_get?,hu,Uncrossed,FindsNothing,hi]
  | some u =>
    have hday : day (step s (.advance i)).clock = day s.clock := by simp [step_clock,Act.seconds]
    by_cases hhit : id = uid ∧ u.lastDailyReset < todayStart now
    · have hu' : (step s (.advance i)).users.get? uid =
          some { u with dailyUsed := 0, lastDailyReset := now } := by
        simp [step_get?,hu,Act.write,hi,write,hhit]
      rw [counted_some hu',passedToday_step _ hday,ResetToday,hday]
      simp [Act.passes,Uncrossed,FindsNothing,hi,hu,hhit,eq_comm]
    · have hframe : Counted uid (step s (.advance i)) :=
        counted_frame (by simp [hu,Act.write,hi,write,hhit]) rfl rfl h
      refine iff_of_true hframe ?_
      simp only [Uncrossed,FindsNothing,hi,hu,mem_def,some.injEq,forall_eq']
      exact fun hid _ hlt => absurd ⟨hid,hlt⟩ hhit

theorem counted_step_iff (s : State) (a : Act) (ht : WellTimed s) (h : Counted uid s) :
    Counted uid (step s a) ↔ Uncrossed uid s a := by
  cases a with
  | tick seconds => exact iff_of_true (counted_tick ht h) trivial
  | postConsumeDailyQuota id quotaConsumed fails => exact counted_postConsume_iff h
  | advance i =>
    cases hi : s.calls[i]? with
    | none =>
      have hs : step s (.advance i) = s := by simp [step,hi]
      rw [hs]
      exact iff_of_true h (by simp [Uncrossed,hi])
    | some call =>
      cases call with
      | reset id now caller => exact counted_reset_iff hi h
      | postCheck | switchRead | switchWrite | process | restoreRead | restoreWrite | cron | check | recheck =>
        refine iff_of_true (counted_frame (fun u _ => ?_) rfl rfl h) (by simp [Uncrossed,FindsNothing,hi])
        simp only [Act.write,hi,write]
        try split
        all_goals simp
  | processDailyQuotaReset | processDailyQuotaResets | checkAndHandleDailyQuotaExhaustion | fault =>
    exact iff_of_true (counted_frame (fun _ _ => ⟨rfl,rfl⟩) rfl rfl h) trivial

theorem daily_used_counts_the_day_iff (userId : ℕ) (s : State) (acts : List Act) (ht : WellTimed s)
    (h : Counted userId s) :
    Always step (Counted userId) s acts ↔ Along step (Uncrossed userId) s acts :=
  always_iff_along (fun _ a ht => ht.step a) counted_step_iff acts ht h

/-- A user on the base group, last reset on day 0; it is day 1 now. -/
def afterMidnight : State where
  clock := 90000
  users := ⟨[⟨1,"vip","vip","free",100,40,10⟩],by decide⟩
  calls := []
  passed := []

lemma afterMidnight_wellTimed : WellTimed afterMidnight := wellTimed_of_rows rfl (by decide)

theorem consumption_before_reset_lost : WellTimed afterMidnight ∧ Counted 1 afterMidnight ∧
      ¬Always step (Counted 1) afterMidnight
        [.postConsumeDailyQuota 1 30 false,.processDailyQuotaResets [1],.advance 1,.advance 1] :=
  ⟨afterMidnight_wellTimed,by decide,by decide⟩

theorem counted_after_cron_pass : Along step (Uncrossed 1) afterMidnight
        [.processDailyQuotaResets [1],.advance 0,.advance 0,.postConsumeDailyQuota 1 30 false,.advance 1,
          .tick 86400,.checkAndHandleDailyQuotaExhaustion 1 5,.advance 1] ∧
      Always step (Counted 1) afterMidnight
        [.processDailyQuotaResets [1],.advance 0,.advance 0,.postConsumeDailyQuota 1 30 false,.advance 1,
          .tick 86400,.checkAndHandleDailyQuotaExhaustion 1 5,.advance 1] :=
  ⟨by decide,(daily_used_counts_the_day_iff 1 afterMidnight _ afterMidnight_wellTimed (by decide)).mpr (by decide)⟩

/-! The group. -/

structure User.Metered (u : User) : Prop where
  quota : 0 < u.dailyQuota
  base : u.baseGroup ≠ ""
  fallback : u.fallbackGroup ≠ ""
  differ : u.baseGroup ≠ u.fallbackGroup

instance (u : User) : Decidable u.Metered :=
  decidable_of_iff (0 < u.dailyQuota ∧ u.baseGroup ≠ "" ∧ u.fallbackGroup ≠ "" ∧ u.baseGroup ≠ u.fallbackGroup)
    ⟨fun h => ⟨h.1,h.2.1,h.2.2.1,h.2.2.2⟩,fun h => ⟨h.quota,h.base,h.fallback,h.differ⟩⟩

/-- With no call in flight, a user who is exhausted since the day's reset is on the fallback group. -/
def OnFallback (userId : ℕ) (s : State) : Prop :=
  s.calls = [] → ∀ u ∈ s.users.get? userId, u.Metered → ResetToday s u → u.dailyQuota ≤ u.dailyUsed →
    u.group = u.fallbackGroup
  deriving Decidable

def Switches (userId : ℕ) : Call → Prop
  | .postCheck id | .switchRead id | .switchWrite id _ => id = userId
  | _ => False

instance (userId : ℕ) : ∀ call, Decidable (Switches userId call)
  | .postCheck _ | .switchRead _ | .switchWrite .. => inferInstanceAs (Decidable (_ = _))
  | .reset .. | .process .. | .restoreRead .. | .restoreWrite .. | .cron _ | .check .. | .recheck .. =>
    isFalse id

def SparesExhausted (userId : ℕ) (s : State) : Call → Prop
  | .restoreWrite id _ _ => id = userId →
    ∀ u ∈ s.users.get? userId, ResetToday s u → u.dailyUsed < u.dailyQuota
  | _ => True

instance (userId : ℕ) (s : State) : ∀ call, Decidable (SparesExhausted userId s call)
  | .restoreWrite .. => inferInstanceAs (Decidable (_ → ∀ u ∈ s.users.get? userId, _))
  | .postCheck _ | .switchRead _ | .switchWrite .. | .reset .. | .process .. | .restoreRead .. | .cron _
  | .check .. | .recheck .. => isTrue trivial

/-- Restores spare the exhausted user, and no statement fails on the way to the fallback group. -/
def Unrestored (userId : ℕ) (s : State) : Act → Prop
  | .advance i => ∀ call ∈ s.calls[i]?, SparesExhausted userId s call
  | .fault i => ∀ call ∈ s.calls[i]?, ¬Switches userId call
  | _ => True

instance (userId : ℕ) (s : State) : ∀ a, Decidable (Unrestored userId s a)
  | .advance i => inferInstanceAs (Decidable (∀ call ∈ s.calls[i]?, SparesExhausted userId s call))
  | .fault i => inferInstanceAs (Decidable (∀ call ∈ s.calls[i]?, ¬Switches userId call))
  | .tick _ | .postConsumeDailyQuota .. | .processDailyQuotaReset _ | .processDailyQuotaResets _
  | .checkAndHandleDailyQuotaExhaustion .. => isTrue trivial

structure FallbackInv (userId : ℕ) (s : State) : Prop where
  exhausted : ∀ u ∈ s.users.get? userId, u.Metered → ResetToday s u → u.dailyQuota ≤ u.dailyUsed →
    u.group = u.fallbackGroup ∨ ∃ call ∈ s.calls, Switches userId call
  pending : ∀ u ∈ s.users.get? userId, ∀ group, Call.switchWrite userId group ∈ s.calls → group = u.fallbackGroup

lemma write_fixed (a : Act) :
    (a.write s uid u).dailyQuota = u.dailyQuota ∧ (a.write s uid u).baseGroup = u.baseGroup ∧
      (a.write s uid u).fallbackGroup = u.fallbackGroup := by
  cases a with
  | postConsumeDailyQuota => simp only [Act.write]; split <;> simp
  | advance i =>
    cases h : s.calls[i]? with
    | none => simp [Act.write,h]
    | some call => cases call <;> simp only [Act.write,h,write] <;> (try split) <;> simp
  | tick | processDailyQuotaReset | processDailyQuotaResets | checkAndHandleDailyQuotaExhaustion | fault =>
    simp [Act.write]

theorem FallbackInv.kept (h : FallbackInv uid s)
    (hu : s.users.get? uid = some u) (hm : u.Metered) (hr : ResetToday s u) (hq : u.dailyQuota ≤ u.dailyUsed)
    (htak : ∀ call, a.takes s = some call → ¬Switches uid call) :
    u.group = u.fallbackGroup ∨ ∃ call ∈ (step s a).calls, Switches uid call := by
  rcases h.exhausted u hu hm hr hq with hg | ⟨call,hmem,hc⟩
  · exact .inl hg
  · exact .inr ⟨call,(mem_step_calls s a call).2.2 hmem fun ht => htak call ht hc,hc⟩

lemma switches_execute
    (hu : s.users.get? userId = some u) (hm : u.Metered) (hq : u.dailyQuota ≤ u.dailyUsed)
    (hpending : ∀ group, call = .switchWrite userId group → group = u.fallbackGroup)
    (hc : Switches userId call) : (call.write userId u).group = u.fallbackGroup ∨
      ∃ next, (call.execute s.clock s.users).2 = some next ∧ Switches userId next := by
  have hquota : ¬u.dailyQuota ≤ 0 := not_le.mpr hm.quota
  cases call with
  | postCheck id =>
    obtain rfl : id = userId := hc
    by_cases hg : u.group = u.fallbackGroup
    · exact .inl hg
    · refine .inr ⟨.switchRead id,?_,rfl⟩
      simp [execute,getUserDailyQuotaInfo,hu,User.info,hquota,hq,hg,hm.fallback]
  | switchRead id =>
    obtain rfl : id = userId := hc
    by_cases hg : u.group = u.fallbackGroup
    · exact .inl hg
    · refine .inr ⟨.switchWrite id u.fallbackGroup,?_,rfl⟩
      simp [execute,hu,hg,hm.fallback]
  | switchWrite id group =>
    obtain rfl : id = userId := hc
    exact .inl (by simp [write,hpending group rfl])
  | process | reset | restoreRead | restoreWrite | cron | check | recheck => exact hc.elim

lemma resetToday_iff_of_still (hsti : a.seconds = 0) : ResetToday (step s a) u ↔ ResetToday s u := by
  rw [ResetToday,ResetToday,step_clock,hsti,Nat.add_zero]

lemma FallbackInv.advance (h : FallbackInv uid s)
    (hu : s.users.get? uid = some u) (hG : Unrestored uid s (.advance i)) (hm : u.Metered)
    (hr : ResetToday s ((Act.advance i).write s uid u))
    (hq : u.dailyQuota ≤ ((Act.advance i).write s uid u).dailyUsed) :
    ((Act.advance i).write s uid u).group = u.fallbackGroup ∨
      ∃ call ∈ (step s (.advance i)).calls, Switches uid call := by
  cases hi : s.calls[i]? with
  | none =>
    have hw : (Act.advance i).write s uid u = u := by simp [Act.write,hi]
    rw [hw] at hr hq ⊢
    exact h.kept hu hm hr hq (by simp [Act.takes,hi])
  | some call =>
    have hw : (Act.advance i).write s uid u = call.write uid u := by simp [Act.write,hi]
    rw [hw] at hr hq ⊢
    have hkept (hrow : call.write uid u = u) (hc : ¬Switches uid call) :
        (call.write uid u).group = u.fallbackGroup ∨
          ∃ call ∈ (step s (.advance i)).calls, Switches uid call := by
      rw [hrow] at hr hq ⊢
      exact h.kept hu hm hr hq (by simpa [Act.takes,hi] using hc)
    by_cases hc : Switches uid call
    · have hused : (call.write uid u).dailyUsed = u.dailyUsed := by
        cases call <;> simp only [write] <;> (try split) <;> first | rfl | exact hc.elim
      rw [hused] at hq
      have hpending : ∀ group, call = .switchWrite uid group → group = u.fallbackGroup := by
        rintro group rfl
        exact h.pending u hu group (List.mem_of_getElem? hi)
      rcases switches_execute hu hm hq hpending hc with hg | ⟨next,hnext,hs⟩
      · exact .inl hg
      · exact .inr ⟨next,(mem_step_calls s _ next).2.1 (by simp [Act.opens,hi,hnext]),hs⟩
    · cases call with
      | postCheck | switchRead | process | restoreRead | cron | check | recheck => exact hkept rfl hc
      | switchWrite id group => exact hkept (by simp [write,show id ≠ uid from hc]) hc
      | reset id now caller =>
        by_cases hhit : id = uid ∧ u.lastDailyReset < todayStart now
        · have hquota := hm.quota
          simp only [write,hhit,and_self,if_true] at hq
          omega
        · exact hkept (by simp [write,hhit]) hc
      | restoreWrite id group caller =>
        by_cases hid : id = uid
        · have hspa := hG _ hi hid u hu
          simp only [write,hid,if_true] at hr hq
          have hlt := hspa hr
          omega
        · exact hkept (by simp [write,hid]) hc

lemma FallbackInv.step {a : Act} (ht : WellTimed s) (h : FallbackInv uid s)
    (hG : Unrestored uid s a) : FallbackInv uid (step s a) := by
  constructor
  · intro u' hu' hm hr hq
    rw [step_get?,mem_def,map_eq_some_iff] at hu'
    obtain ⟨u,hu,rfl⟩ := hu'
    obtain ⟨hquota,hbase,hfal⟩ := write_fixed a
    replace hm : u.Metered := by
      constructor
      · exact hquota ▸ hm.quota
      · exact hbase ▸ hm.base
      · exact hfal ▸ hm.fallback
      · exact hbase ▸ hfal ▸ hm.differ
    rw [hquota] at hq
    rw [hfal]
    cases a with
    | advance i => exact h.advance hu hG hm ((resetToday_iff_of_still rfl).mp hr) hq
    | postConsumeDailyQuota id used fails =>
      by_cases hhit : id = uid ∧ 0 < used ∧ fails = false
      · refine .inr ⟨.postCheck uid,(mem_step_calls s _ _).2.1 ?_,rfl⟩
        simp [Act.opens,hhit]
      · have hw : (Act.postConsumeDailyQuota id used fails).write s uid u = u := by
          simp [Act.write,hhit]
        rw [hw] at hr hq ⊢
        exact h.kept hu hm ((resetToday_iff_of_still rfl).mp hr) hq (by simp [Act.takes])
    | tick seconds =>
      have hrow := ht.row uid u hu
      have hr' : ResetToday s u := by
        simp only [ResetToday,DailyQuota.step,Act.write,day] at hr ⊢
        omega
      exact h.kept hu hm hr' hq (by simp [Act.takes])
    | fault i =>
      refine h.kept hu hm ((resetToday_iff_of_still rfl).mp hr) hq ?_
      exact fun call hcall => hG call hcall
    | processDailyQuotaReset | processDailyQuotaResets | checkAndHandleDailyQuotaExhaustion =>
      exact h.kept hu hm ((resetToday_iff_of_still rfl).mp hr) hq (by simp [Act.takes])
  · intro u' hu' group hmem
    rw [step_get?,mem_def,map_eq_some_iff] at hu'
    obtain ⟨u,hu,rfl⟩ := hu'
    rw [(write_fixed a).2.2]
    rcases (mem_step_calls s a _).1 hmem with hold | hnew
    · exact h.pending u hu group hold
    · obtain ⟨row,hrow,hgro⟩ := entered_of_mem_opens hnew
      rw [hu] at hrow
      rw [hgro,some.inj hrow]

theorem exhausted_user_on_fallback (userId : ℕ) (s : State) (acts : List Act) (ht : WellTimed s)
    (hcalls : s.calls = []) (h : OnFallback userId s) (hG : Along step (Unrestored userId) s acts) :
    Always step (OnFallback userId) s acts := by
  have hinv : FallbackInv userId s := by
    refine ⟨fun u hu hm hr hq => .inl (h hcalls u hu hm hr hq),fun u _ group hmem => ?_⟩
    simp [hcalls] at hmem
  have hstep : ∀ s a, WellTimed s ∧ FallbackInv userId s → Unrestored userId s a →
      WellTimed (step s a) ∧ FallbackInv userId (step s a) :=
    fun _ a hI hG => ⟨hI.1.step a,hI.2.step hI.1 hG⟩
  refine (always_of_along hstep ⟨ht,hinv⟩ hG).mono fun s hI hnone u hu hm hr hq => ?_
  rcases hI.2.exhausted u hu hm hr hq with hg | ⟨call,hmem,_⟩
  · exact hg
  · simp [hnone] at hmem

def exhaustedYesterday : State :=
  { afterMidnight with users := ⟨[⟨1,"free","vip","free",100,120,10⟩],by decide⟩ }

lemma exhaustedYesterday_wellTimed : WellTimed exhaustedYesterday := wellTimed_of_rows rfl (by decide)

theorem cron_restores_exhausted_user :
    WellTimed exhaustedYesterday ∧ exhaustedYesterday.calls = [] ∧ OnFallback 1 exhaustedYesterday ∧
      ¬Always step (OnFallback 1) exhaustedYesterday
        [.processDailyQuotaResets [1],.processDailyQuotaReset 1,.advance 1,.advance 1,.advance 1,.advance 1,
          .postConsumeDailyQuota 1 100 false,.advance 1,.advance 1,.advance 1,
          .advance 0,.advance 0,.advance 0,.advance 0,.advance 0] :=
  ⟨exhaustedYesterday_wellTimed,rfl,by decide,by decide⟩

theorem exhausted_after_reset_on_fallback : Along step (Unrestored 1) exhaustedYesterday
        [.processDailyQuotaResets [1],.advance 0,.advance 0,.advance 0,.advance 0,.advance 0,
          .postConsumeDailyQuota 1 100 false,.advance 0,.advance 0,.advance 0] ∧
      Always step (OnFallback 1) exhaustedYesterday
        [.processDailyQuotaResets [1],.advance 0,.advance 0,.advance 0,.advance 0,.advance 0,
          .postConsumeDailyQuota 1 100 false,.advance 0,.advance 0,.advance 0] :=
  ⟨by decide,exhausted_user_on_fallback 1 exhaustedYesterday _ exhaustedYesterday_wellTimed rfl (by decide)
    (by decide)⟩

end LurusHub.DailyQuota
