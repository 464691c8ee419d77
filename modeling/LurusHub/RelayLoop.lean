import LurusHub.ChannelSelect
import LurusHub.Transition

/-! The retry loop of the relay handler. An iteration gets a channel, offers it to its circuit
breaker and calls the upstream; what the environment answers is the iteration's label. Until an
upstream helper has run, `getChannel` returns the distributor's channel. -/
namespace LurusHub.RelayLoop
open ChannelCache ChannelSelect Transition List

structure APIError where
  errorCode : String
  statusCode : ℕ
  skipRetry : Bool := false
  message : String := ""
  retryAfterUnix : ℤ := 0
  requestCaused429 : Bool := false
  deriving DecidableEq

def isChannelError (e : APIError) : Bool := hasStart e.errorCode "channel:"

def coolingRetryAfterSeconds (now retryAfterUnix : ℤ) : ℤ := max 1 (retryAfterUnix-now)

def channelSelectionError (req : Request) (now : ℤ) (group : String) : SelectionError → APIError
  | .allChannelsCooling u =>
    let secs := coolingRetryAfterSeconds now u
    { errorCode := "all_channels_cooling", statusCode := 503, skipRetry := true, retryAfterUnix := now+secs
      message := "all channels for model "++req.modelName++" in group "++group++
        " are rate-limited upstream; retry in ~"++toString secs++"s" }
  | e =>
    { errorCode := "get_channel_failed", statusCode := 500, skipRetry := true
      message := "failed to select an available channel for model "++req.modelName++" in group "++group++
        " (retry): "++e.text req group }

def noAvailableChannel (req : Request) (group : String) : APIError :=
  { errorCode := "get_channel_failed", statusCode := 500, skipRetry := true
    message := "no available channel for model "++req.modelName++" in group "++group++" (retry)" }

def circuitBreakersOpen : APIError :=
  { errorCode := "channel:no_available_key", statusCode := 503, skipRetry := true
    message := "all upstream channels for this model are temporarily unavailable (circuit breakers open)" }

structure BodyError where
  tooLarge : Bool
  text : String

def BodyError.apiError (e : BodyError) : APIError :=
  { errorCode := "read_request_body_failed", statusCode := if e.tooLarge then 413 else 400, skipRetry := true
    message := e.text }

structure RelayRequest extends Request where
  specificChannelId : Bool := false
  bodyErr : Option BodyError := none

structure Iteration where
  surroundings : Surroundings
  setup : Channel → Option APIError := fun _ => none
  allow : ℤ → Bool
  helper : ℤ → Option APIError
  written : Bool := false

/-- No failover once bytes were sent; channel errors are always worth another channel. -/
def shouldRetry (req : RelayRequest) (written : Bool) (e : APIError) (retryTimes : ℤ) : Bool :=
  if written then false
  else if isChannelError e then true
  else if e.skipRetry then false
  else if retryTimes ≤ 0 then false
  else if req.specificChannelId then false
  else if e.statusCode = 429 then !e.requestCaused429
  else if e.statusCode = 307 then true
  else if e.statusCode/100 = 5 then !(e.statusCode = 504 || e.statusCode = 524)
  else if e.statusCode = 400 then false
  else if e.statusCode = 408 then false
  else if e.statusCode/100 = 2 then false
  else true

inductive Phase
  | looping | over | returned
  deriving DecidableEq

structure Loop where
  walk : Walk
  channelMeta : Bool := false
  channelId : ℤ
  useChannel : List ℤ := []
  attempted : Bool := false
  newAPIError : Option APIError := none
  phase : Phase := .looping

def getChannel (req : RelayRequest) (s : Loop) (it : Iteration) : Loop × Except APIError ℤ :=
  if s.channelMeta = false then (s,.ok s.channelId)
  else
    let sel := cacheGetRandomSatisfiedChannel req.toRequest it.surroundings s.useChannel s.walk
    let s := { s with walk := sel.walk }
    match sel.result with
    | .error e => (s,.error (channelSelectionError req.toRequest it.surroundings.now sel.selectGroup e))
    | .ok none => (s,.error (noAvailableChannel req.toRequest sel.selectGroup))
    | .ok (some channel) =>
      let s := { s with channelId := channel.id }
      match it.setup channel with
      | some e => (s,.error e)
      | none => (s,.ok channel.id)

inductive Next
  | again | leave | done
  deriving DecidableEq

/-- A channel that turned out to have no usable key condemns the channel, not the request. -/
def selectionFailed (req : RelayRequest) (s : Loop) (it : Iteration) (e : APIError) : Loop × Next :=
  if e.errorCode = "all_channels_cooling" ∧ s.newAPIError.isSome = true then (s,.leave)
  else
    let retriesLeft : ℤ := req.retryTimes-s.walk.retry
    if isChannelError e && decide (0 < retriesLeft) && shouldRetry req it.written e retriesLeft then
      ({ s with
        newAPIError := some e
        useChannel := if s.channelId ≠ 0 then s.useChannel++[s.channelId] else s.useChannel },.again)
    else ({ s with newAPIError := some e },.leave)

def attempt (req : RelayRequest) (s : Loop) (it : Iteration) (channelId : ℤ) : Loop × Next :=
  match req.bodyErr with
  | some e => ({ s with attempted := true, newAPIError := some e.apiError },.leave)
  | none =>
    let s := { s with attempted := true, channelMeta := true, newAPIError := it.helper channelId }
    match it.helper channelId with
    | none => (s,.done)
    | some e => (s,if shouldRetry req it.written e (req.retryTimes-s.walk.retry) then .again else .leave)

/-- A channel is recorded as used before its breaker is asked. -/
def iteration (req : RelayRequest) (s : Loop) (it : Iteration) : Loop × Next :=
  match getChannel req s it with
  | (s,.error e) => selectionFailed req s it e
  | (s,.ok channelId) =>
    let s := { s with useChannel := s.useChannel++[channelId] }
    if it.allow channelId then attempt req s it channelId else (s,.again)

def step (req : RelayRequest) (s : Loop) (it : Iteration) : Loop :=
  if s.phase = .looping then
    match iteration req s it with
    | (s,.done) => { s with phase := .returned }
    | (s,.leave) => { s with phase := .over }
    | (s,.again) =>
      { s with
        walk := s.walk.increaseRetry
        phase := if s.walk.increaseRetry.retry ≤ req.retryTimes then .looping else .over }
  else s

/-- The loop is entered with the distributor's channel and the group index its selection left. -/
def start (channelId : ℤ) (autoGroupIndex : Option ℕ) : Loop := { walk := { autoGroupIndex }, channelId }

/-- The loop is over, and every channel it was offered was refused by its breaker. -/
def allRefused (s : Loop) : Bool := s.phase = .over && !s.attempted && s.newAPIError.isNone

def answer (s : Loop) : Option APIError := if allRefused s then some circuitBreakersOpen else s.newAPIError

/-! Every iteration brings the walk forward. -/

lemma getChannel_walk : (getChannel req s it).1.walk = if s.channelMeta then
      (cacheGetRandomSatisfiedChannel req.toRequest it.surroundings s.useChannel s.walk).walk else s.walk := by
  unfold getChannel
  cases s.channelMeta with
  | false => rfl
  | true =>
    dsimp only
    rw [if_neg (by decide)]
    split
    · rfl
    · rfl
    · split <;> rfl

structure Keeps (s t : Loop) : Prop where
  walk : t.walk = s.walk
  attempted : s.attempted = true → t.attempted = true

lemma selectionFailed_keeps : Keeps s (selectionFailed req s it e).1 := by
  unfold selectionFailed
  split
  · exact ⟨rfl,id⟩
  · dsimp only
    split <;> exact ⟨rfl,id⟩

lemma attempt_keeps (req : RelayRequest) (s : Loop) (it : Iteration) (cid : ℤ) :
    Keeps s (attempt req s it cid).1 := by
  unfold attempt
  split
  · exact ⟨rfl,fun _ => rfl⟩
  · split <;> exact ⟨rfl,fun _ => rfl⟩

lemma iteration_keeps (req : RelayRequest) (s : Loop) (it : Iteration) :
    Keeps (getChannel req s it).1 (iteration req s it).1 := by
  unfold iteration
  split
  · next s' e heq =>
    rw [heq]
    exact selectionFailed_keeps
  · next s' cid heq =>
    rw [heq]
    split
    · have hkeeps := attempt_keeps req { s' with useChannel := s'.useChannel++[cid] } it cid
      exact ⟨hkeeps.walk,hkeeps.attempted⟩
    · exact ⟨rfl,id⟩

variable {s : Loop}

lemma iteration_leads (req : RelayRequest) (hcle : s.walk.resetNextTry = false) (it : Iteration) :
    s.walk.Leads req.groupCount (iteration req s it).1.walk := by
  rw [(iteration_keeps req s it).walk,getChannel_walk]
  split
  · exact cacheGetRandomSatisfiedChannel_leads req.toRequest it.surroundings s.useChannel hcle
  · exact Walk.leads_self hcle _

structure Ready (req : RelayRequest) (s : Loop) : Prop where
  looping : s.phase = .looping
  clear : s.walk.resetNextTry = false
  inRange : s.walk.retry ≤ req.retryTimes

lemma step_cases (req : RelayRequest) (hrea : Ready req s) (it : Iteration) :
    (step req s it).phase ≠ .looping ∧
        (step req s it).walk.startGroupIndex = (iteration req s it).1.walk.startGroupIndex ∨
      Ready req (step req s it) ∧ (step req s it).walk = (iteration req s it).1.walk.increaseRetry := by
  have hcle := (iteration_leads req hrea.clear it).clear
  rw [step,if_pos hrea.looping]
  split
  · next heq => exact .inl ⟨by simp,by rw [heq]⟩
  · next heq => exact .inl ⟨by simp,by rw [heq]⟩
  · next heq =>
    rw [heq] at hcle ⊢
    by_cases hle : (iteration req s it).1.walk.increaseRetry.retry ≤ req.retryTimes
    · rw [heq] at hle
      exact .inr ⟨⟨if_pos hle,hcle,hle⟩,rfl⟩
    · rw [heq] at hle
      exact .inl ⟨by simp [if_neg hle],Walk.increaseRetry_startGroupIndex _⟩

lemma step_ended (h : s.phase ≠ .looping) (it : Iteration) : step req s it = s := if_neg h

lemma start_ready (req : RelayRequest) (cid : ℤ) (autoGroupIndex : Option ℕ) :
    Ready req (start cid autoGroupIndex) := ⟨rfl,rfl,Nat.zero_le _⟩

/-- What is left of the loop: the groups ahead, with all their retries, and the retries of this group. -/
def remaining (req : RelayRequest) (w : Walk) : ℕ :=
  (req.groupCount-w.startGroupIndex)*(req.retryTimes+1)+(req.retryTimes+1-w.retry)

lemma remaining_lt (hin : w.retry ≤ req.retryTimes) (h : w.Leads req.groupCount v) :
    remaining req v.increaseRetry < remaining req w := by
  unfold remaining
  rw [Walk.increaseRetry_startGroupIndex]
  rcases h.ahead with ⟨hindex,hret⟩ | ⟨hindex,hn⟩
  · rw [hindex]
    omega
  · -- a group fewer ahead outweighs all the retries of the next one
    have hgro : req.groupCount-v.startGroupIndex+1 ≤ req.groupCount-w.startGroupIndex := by omega
    have hmul := Nat.mul_le_mul_right (req.retryTimes+1) hgro
    rw [Nat.add_mul] at hmul
    omega

lemma remaining_start_le :
    remaining req (start channelId autoGroupIndex).walk ≤ (req.groupCount+1)*(req.retryTimes+1) := by
  have hmul := Nat.mul_le_mul_right (req.retryTimes+1) (Nat.sub_le req.groupCount (autoGroupIndex.getD 0))
  rw [Nat.add_mul,Nat.one_mul]
  exact Nat.add_le_add hmul (Nat.sub_le _ _)

lemma ends_within (hrea : Ready req s)
    (hlen : remaining req s.walk ≤ its.length) : (run (step req) s its).phase ≠ .looping := by
  refine done_of_measure (D := fun s => s.phase ≠ .looping) (I := Ready req) (m := fun s => remaining req s.walk)
    ?_ ?_ ?_ hrea hlen
  · intro s it h
    rwa [step_ended h]
  · intro s it h
    rcases step_cases req h it with ⟨hend,_⟩ | ⟨hnext,hwalk⟩
    · exact .inl hend
    · refine .inr ⟨hnext,?_⟩
      rw [hwalk]
      exact remaining_lt h.inRange (iteration_leads req h.clear it)
  · intro s h
    have := h.inRange
    exact Nat.add_pos_right _ (by omega)

/-! The walk never goes back. -/

def selection (req : RelayRequest) (s : Loop) (it : Iteration) : Option Selection :=
  if s.phase = .looping ∧ s.channelMeta = true then
    some (cacheGetRandomSatisfiedChannel req.toRequest it.surroundings s.useChannel s.walk)
  else none

def selects (req : RelayRequest) (s : Loop) (it : Iteration) : Option ℕ :=
  if s.phase = .looping ∧ s.channelMeta = true then selectedGroup req.toRequest it.surroundings s.useChannel s.walk
  else none

def selections (req : RelayRequest) (s : Loop) (its : List Iteration) : List ℕ :=
  (trace (step req) s its).filterMap fun p => selects req p.1 p.2

lemma selects_of_result (hauto : req.tokenGroup = "auto")
    (hpin : it.surroundings.binding = none) (hsel : selection req s it = some sel)
    (h : sel.result = .ok (some channel)) :
    ∃ i, selects req s it = some i ∧ req.getUserAutoGroup[i]? = some sel.selectGroup := by
  unfold selection at hsel
  split at hsel
  · next hin =>
    cases hsel
    rw [selects,if_pos hin]
    exact selectedGroup_of_result hauto hpin h
  · cases hsel

def Sound (req : RelayRequest) (s : Loop) : Prop := s.phase = .looping → Ready req s

lemma sound_step (h : Sound req s) (it : Iteration) : Sound req (step req s it) := by
  intro hloo
  by_cases hphase : s.phase = .looping
  · rcases step_cases req (h hphase) it with ⟨hend,_⟩ | ⟨hnext,_⟩
    · exact absurd hloo hend
    · exact hnext
  · rw [step_ended hphase] at hloo
    exact absurd hloo hphase

lemma step_index (h : Ready req s) :
    (step req s it).walk.startGroupIndex = (iteration req s it).1.walk.startGroupIndex := by
  rcases step_cases req h it with ⟨_,hindex⟩ | ⟨_,hwalk⟩
  · exact hindex
  · rw [hwalk,Walk.increaseRetry_startGroupIndex]

lemma index_step (h : Sound req s) : s.walk.startGroupIndex ≤ (step req s it).walk.startGroupIndex := by
  by_cases hphase : s.phase = .looping
  · rw [step_index (h hphase)]
    exact (iteration_leads req (h hphase).clear it).le
  · rw [step_ended hphase]

lemma index_run (h : Sound req s) :
    s.walk.startGroupIndex ≤ (run (step req) s its).walk.startGroupIndex := by
  have hrun := run_stable (I := fun t => Sound req t ∧ s.walk.startGroupIndex ≤ t.walk.startGroupIndex)
    (fun t it ⟨ht,hle⟩ => ⟨sound_step ht it,hle.trans (index_step ht)⟩) its ⟨h,le_rfl⟩
  exact hrun.2

lemma selects_between (h : Sound req s) (hi : selects req s it = some i) :
    s.walk.startGroupIndex ≤ i ∧ i ≤ (step req s it).walk.startGroupIndex := by
  unfold selects at hi
  split at hi
  · next hin =>
    have hrea := h hin.1
    rw [step_index hrea,(iteration_keeps req s it).walk,getChannel_walk,if_pos hin.2]
    exact selectedGroup_between req.toRequest it.surroundings s.useChannel hrea.clear hi
  · cases hi

lemma selections_between (h : Sound req s) : ∀ i ∈ selections req s its,
      s.walk.startGroupIndex ≤ i ∧ i ≤ (run (step req) s its).walk.startGroupIndex := by
  induction its generalizing s with
  | nil => intro i hi; cases hi
  | cons it its ih =>
    intro i hi
    have hnext := sound_step h it
    obtain ⟨p,hp,hsel⟩ := mem_filterMap.mp hi
    rcases mem_cons.mp hp with rfl | hp
    · obtain ⟨hlow,hhigh⟩ := selects_between h hsel
      exact ⟨hlow,hhigh.trans (index_run hnext)⟩
    · obtain ⟨hlow,hhigh⟩ := ih hnext i (mem_filterMap.mpr ⟨p,hp,hsel⟩)
      exact ⟨(index_step h).trans hlow,hhigh⟩

/-- The loop ends within a retry budget for every group and one for its first. -/
theorem relay_loop_bounded (req : RelayRequest) (channelId : ℤ) (autoGroupIndex : Option ℕ) :
    let s := start channelId autoGroupIndex
    (∀ its : List Iteration, (req.groupCount+1)*(req.retryTimes+1) ≤ its.length →
        (run (step req) s its).phase ≠ .looping) ∧
      ∀ before after : List Iteration, req.tokenGroup = "auto" →
        (∀ it ∈ before++after, it.surroundings.binding = none) →
        (∀ p ∈ trace (step req) s (before++after), ∀ sel, selection req p.1 p.2 = some sel → ∀ channel,
          sel.result = .ok (some channel) →
            ∃ i, selects req p.1 p.2 = some i ∧ req.getUserAutoGroup[i]? = some sel.selectGroup) ∧
        (∀ i ∈ selections req s before, i ≤ (run (step req) s before).walk.startGroupIndex) ∧
        ∀ i ∈ selections req (run (step req) s before) after,
          (run (step req) s before).walk.startGroupIndex ≤ i := by
  intro s
  have hrea := start_ready req channelId autoGroupIndex
  refine ⟨fun its hlen => ends_within hrea ((remaining_start_le).trans hlen),?_⟩
  intro before after hauto hpin
  have hsound : Sound req s := fun _ => hrea
  have hmid := run_stable (I := Sound req) (fun _ it h => sound_step h it) before hsound
  refine ⟨?_,fun i hi => (selections_between hsound i hi).2,fun i hi => (selections_between hmid i hi).1⟩
  intro p hp sel hsel channel hres
  have hit : p.2 ∈ before++after := by
    rw [← map_snd_trace (step req) s (before++after)]
    exact mem_map_of_mem hp
  exact selects_of_result hauto (hpin p.2 hit) hsel hres

def twoGroups : RelayRequest :=
  { tokenGroup := "auto", modelName := "m", crossGroupRetry := true, autoGroupsSetting := ["a","b"]
    usableGroups := ["a","b"], retryTimes := 1 }

def failing : Iteration where
  surroundings := { cache := rebuildChannelCache ⟨[{ id := 1, models := ["m"], group := ["a","b"] }],by decide⟩ fun _ _ => false }
  allow _ := true
  helper _ := some { errorCode := "bad_response", statusCode := 500 }

theorem both_groups_walked :
    let s := start 1 none
    selections twoGroups s (List.replicate 6 failing) = [0,1,1] ∧
      (run (step twoGroups) s (List.replicate 6 failing)).phase ≠ .looping ∧
      ∀ i ∈ selections twoGroups (run (step twoGroups) s (List.replicate 2 failing)) (List.replicate 4 failing), 1 ≤ i := by
  have hbou := relay_loop_bounded twoGroups 1 none
  refine ⟨by decide,hbou.1 _ (by decide),?_⟩
  have hindex : (run (step twoGroups) (start 1 none) (replicate 2 failing)).walk.startGroupIndex = 1 := by decide
  have hoff : ∀ it ∈ replicate 2 failing++replicate 4 failing, it.surroundings.binding = none := by
    intro it hit
    simp only [replicate_append_replicate,mem_replicate] at hit
    rw [hit.2]
    rfl
  exact hindex ▸ (hbou.2 (replicate 2 failing) (replicate 4 failing) rfl hoff).2.2

end LurusHub.RelayLoop
