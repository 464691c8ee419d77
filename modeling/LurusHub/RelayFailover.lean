import LurusHub.RelayLoop

/-! Whether a request gets past an open circuit breaker. A refused channel is recorded as used, but
until an upstream helper has run the next iteration is offered the distributor's channel again. -/
namespace LurusHub.RelayLoop
open ChannelCache ChannelSelect Transition List

def offers (req : RelayRequest) (s : Loop) (it : Iteration) : Option ℤ :=
  if s.phase = .looping then (getChannel req s it).2.toOption else none

def calls (req : RelayRequest) (s : Loop) (it : Iteration) : Bool :=
  (offers req s it).any it.allow && req.bodyErr.isNone

structure Live (req : RelayRequest) (its : List Iteration) (c : Channel) : Prop where
  candidate : ∀ it ∈ its, c ∈ asked req.toRequest it.surroundings req.tokenGroup ∧ req.filterPred.all (· c) = true
  notCooling : ∀ it ∈ its, coolingUntil it.surroundings.cooldowns it.surroundings.now c.id 0 = 0
  admitted : ∀ it ∈ its, it.allow c.id = true

/-- An upstream is called, and the answer that all breakers are open is not given while a live channel has not been
offered. -/
def Reaches (req : RelayRequest) (s : Loop) (its : List Iteration) : Prop :=
  (∃ p ∈ trace (step req) s its, calls req p.1 p.2 = true) ∧
    ¬(allRefused (run (step req) s its) = true ∧
      ∃ c, Live req its c ∧ ∀ p ∈ trace (step req) s its, offers req p.1 p.2 ≠ some c.id)

def refused (req : RelayRequest) (channelId : ℤ) (autoGroupIndex : Option ℕ) (k : ℕ) : Loop :=
  { walk := { retry := k, autoGroupIndex }, channelId, useChannel := List.replicate k channelId
    phase := if k ≤ req.retryTimes then .looping else .over }

lemma refused_looping (hk : k ≤ req.retryTimes) : (refused req channelId autoGroupIndex k).phase = .looping := if_pos hk

lemma refused_over (hk : req.retryTimes < k) : (refused req channelId autoGroupIndex k).phase = .over :=
  if_neg (by omega)

lemma offers_refused (hk : k ≤ req.retryTimes) :
    offers req (refused req channelId autoGroupIndex k) it = some channelId := by
  rw [offers,if_pos (refused_looping hk)]
  rfl

lemma iteration_refused : iteration req (refused req cid autoGroupIndex k) it =
      let s := { refused req cid autoGroupIndex k with useChannel := List.replicate (k+1) cid }
      if it.allow cid then attempt req s it cid else (s,.again) := by
  rw [replicate_succ']
  rfl

lemma step_refused (hk : k ≤ req.retryTimes) (hno : it.allow cid = false) :
    step req (refused req cid autoGroupIndex k) it = refused req cid autoGroupIndex (k+1) := by
  rw [step,if_pos (refused_looping hk),iteration_refused]
  simp only [hno]
  rfl

lemma attempt_attempted (req : RelayRequest) (s : Loop) (it : Iteration) (id : ℤ) :
    (attempt req s it id).1.attempted := by
  unfold attempt
  split
  · rfl
  · split <;> rfl

lemma step_admitted (hk : k ≤ req.retryTimes) (hyes : it.allow cid) :
    (step req (refused req cid autoGroupIndex k) it).attempted := by
  have hatt := attempt_attempted req
    { refused req cid autoGroupIndex k with useChannel := replicate (k+1) cid } it cid
  rw [step,if_pos (refused_looping hk),iteration_refused]
  simp only [hyes,if_true]
  split <;> next heq => rwa [heq] at hatt

lemma getChannel_attempted : (getChannel req s it).1.attempted = s.attempted := by
  unfold getChannel
  split
  · rfl
  · dsimp only
    split
    · rfl
    · rfl
    · split <;> rfl

lemma attempted_step (h : s.attempted) : (step req s it).attempted := by
  have hit := (iteration_keeps req s it).attempted ((getChannel_attempted).trans h)
  unfold step
  split
  · split <;> next heq => rwa [heq] at hit
  · exact h

lemma called_of_admitted (hbody : req.bodyErr = none)
    (h : ∃ it ∈ its.take (req.retryTimes+1-k), it.allow cid) :
    (∃ p ∈ trace (step req) (refused req cid autoGroupIndex k) its, calls req p.1 p.2) ∧
      (run (step req) (refused req cid autoGroupIndex k) its).attempted := by
  induction its generalizing k with
  | nil => simp at h
  | cons it its ih =>
    have hk : k ≤ req.retryTimes := by
      by_contra hlt
      rw [show req.retryTimes+1-k = 0 by omega] at h
      simp at h
    by_cases hyes : it.allow cid
    · refine ⟨⟨_,mem_cons_self,?_⟩,?_⟩
      · simp [calls,offers_refused hk,hyes,hbody]
      · exact run_stable (I := fun s : Loop => s.attempted) (fun _ it h => attempted_step h) its (step_admitted hk hyes)
    · obtain ⟨jt,hjt,hallow⟩ := h
      rw [show req.retryTimes+1-k = req.retryTimes+1-(k+1)+1 by omega] at hjt
      have hrest : jt ∈ its.take (req.retryTimes+1-(k+1)) := by
        rcases mem_cons.mp hjt with rfl | hmem
        · exact absurd hallow hyes
        · exact hmem
      obtain ⟨⟨p,hp,hcall⟩,hatt⟩ := ih (k:=k+1) ⟨jt,hrest,hallow⟩
      rw [← step_refused hk (Bool.not_eq_true _ ▸ hyes)] at hp hatt
      exact ⟨⟨p,mem_cons_of_mem _ hp,hcall⟩,hatt⟩

lemma admitted_of_called
    (hp : p ∈ trace (step req) (refused req channelId autoGroupIndex k) its) (h : calls req p.1 p.2) :
    ∃ it ∈ its.take (req.retryTimes+1-k), it.allow channelId := by
  induction its generalizing k with
  | nil => cases hp
  | cons it its ih =>
    by_cases hk : k ≤ req.retryTimes
    · rw [show req.retryTimes+1-k = req.retryTimes+1-(k+1)+1 by omega]
      by_cases hyes : it.allow channelId
      · exact ⟨it,mem_cons_self,hyes⟩
      · rcases mem_cons.mp hp with rfl | hp
        · simp [calls,offers_refused hk,hyes] at h
        · rw [step_refused hk (Bool.not_eq_true _ ▸ hyes)] at hp
          obtain ⟨jt,hjt,hallow⟩ := ih hp
          exact ⟨jt,mem_cons_of_mem _ hjt,hallow⟩
    · -- the loop has ended
      have hover : (refused req channelId autoGroupIndex k).phase ≠ .looping := by
        rw [refused_over (not_le.mp hk)]
        decide
      have hended := trace_invariant (I := fun s : Loop => s.phase ≠ .looping) (fun s it h => (step_ended h it).symm ▸ h)
        hover (it::its) p hp
      simp [calls,offers,hended] at h

lemma not_allRefused (h : s.attempted) : allRefused s = false := by simp [allRefused,h]

theorem reaches_iff_first_admitted (req : RelayRequest) (channelId : ℤ) (autoGroupIndex : Option ℕ)
    (its : List Iteration) : Reaches req (start channelId autoGroupIndex) its ↔
      req.bodyErr = none ∧ ∃ it ∈ its.take (req.retryTimes+1), it.allow channelId = true := by
  have hstart : start channelId autoGroupIndex = refused req channelId autoGroupIndex 0 := rfl
  constructor
  · rintro ⟨⟨p,hp,hcall⟩,_⟩
    refine ⟨?_,admitted_of_called (hstart ▸ hp) hcall⟩
    simp only [calls,Bool.and_eq_true,Option.isNone_iff_eq_none] at hcall
    exact hcall.2
  · rintro ⟨hbody,hadmitted⟩
    rw [hstart]
    obtain ⟨hcalled,hatt⟩ := called_of_admitted (k:=0) hbody hadmitted
    refine ⟨hcalled,fun ⟨href,_⟩ => ?_⟩
    rw [not_allRefused hatt] at href
    cases href

def twoChannels : RelayRequest := { tokenGroup := "default", modelName := "m", retryTimes := 1 }

def spare : Channel := { id := 2, models := ["m"], group := ["default"] }

/-- The breaker of channel 1 is open, channel 2 would serve. -/
def firstOpen : Iteration where
  surroundings := { cache := rebuildChannelCache ⟨[{ spare with id := 1 },spare],by decide⟩ fun _ _ => false }
  allow id := id = 2
  helper _ := none

theorem live_channel_never_offered :
    let its := List.replicate 2 firstOpen
    Live twoChannels its spare ∧
      (asked twoChannels.toRequest firstOpen.surroundings "default").length = twoChannels.retryTimes+1 ∧
      (trace (step twoChannels) (start 1 none) its).map (fun p => offers twoChannels p.1 p.2) = [some 1,some 1] ∧
      answer (run (step twoChannels) (start 1 none) its) = some circuitBreakersOpen ∧
      ¬Reaches twoChannels (start 1 none) its := by
  intro its
  have hits : ∀ it ∈ its, it = firstOpen := fun it hit => (mem_replicate.mp hit).2
  refine ⟨⟨?_,?_,?_⟩,by decide,by decide,by decide,fun h => absurd h.1 (by decide)⟩
  · intro it hit
    rw [hits it hit]
    decide
  · intro it hit
    rw [hits it hit]
    decide
  · intro it hit
    rw [hits it hit]
    decide

end LurusHub.RelayLoop
