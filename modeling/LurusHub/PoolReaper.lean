import LurusHub.KeyDisabling

/-! The reaper of parked keys beside the calls that park them. The reaper lists rows and takes the
lock only to save its copy; a call reads the row, parks its key in the copy under the lock and saves
after it. With the memory cache on, one more lock keeps calls apart. -/
namespace LurusHub.PoolReaper
open ChannelCache KeyPool Transition KeyedTable Function

structure Call where
  usingKey : String
  cooldownUntil : ℤ
  keepStatus : Bool := false

structure Setting where
  memoryCacheEnabled : Bool
  now : ℤ
  calls : ℕ → Call

inductive Phase
  | waiting
  | started
  | loaded (channel : Channel)
  | parked (loaded channel : Channel) (allParkedUntil : ℤ)
  | returned (ok : Bool) (allParkedUntil : ℤ)
  deriving DecidableEq

inductive Reaper
  | idle
  | listed (channel : Option Channel)
  | done
  deriving DecidableEq

structure System where
  row : Channel
  cached : Option Channel
  channelStatusLock : Option ℕ := none
  reaper : Reaper := .idle
  calls : ℕ → Phase := fun _ => .waiting

inductive Act
  | list
  | reap (saved : Bool)
  | start (i : ℕ)
  | load (i : ℕ) (ok : Bool)
  | park (i : ℕ)
  | save (i : ℕ) (ok : Bool)

def parkIn (call : Call) (channel : Channel) : Channel × ℤ :=
  applyMultiKeyCooldownOpt call.usingKey call.cooldownUntil call.keepStatus channel

def System.move (s : System) (i : ℕ) (phase : Phase) : System := { s with calls := Function.update s.calls i phase }

def System.finish (s : System) (i : ℕ) (ok : Bool) (allParkedUntil : ℤ) : System :=
  { s.move i (.returned ok allParkedUntil) with
    channelStatusLock := if s.channelStatusLock = some i then none else s.channelStatusLock }

/-- With the memory cache on, a call waits for the lock and parks the key in the cached channel first. -/
def startCall (set : Setting) (s : System) (i : ℕ) : System :=
  if (set.calls i).cooldownUntil ≤ 0 then s.finish i false 0
  else if set.memoryCacheEnabled = false then s.move i .started
  else if s.channelStatusLock.isSome then s
  else match s.cached with
    | none => s.finish i false 0
    | some cached =>
      if cached.channelInfo.isMultiKey = false then s.finish i false 0
      else { s.move i .started with
        cached := some (parkIn (set.calls i) cached).1
        channelStatusLock := some i }

def saveWithoutKey (row channel : Channel) : Channel := { channel with keys := row.keys }

def saveChannelPoolState (row channel : Channel) : Channel :=
  { row with status := channel.status, channelInfo := channel.channelInfo }

/-- A step that is not the next one of its party does nothing. -/
def step (set : Setting) (s : System) : Act → System
  | .list =>
    match s.reaper with
    | .idle => { s with reaper := .listed (if s.row.channelInfo.isMultiKey then some s.row else none) }
    | _ => s
  | .reap saved =>
    match s.reaper with
    | .listed (some channel) =>
      let (channel',recovered) := reapChannel set.now channel
      if recovered = 0 ∨ saved = false then { s with reaper := .done }
      else { s with reaper := .done, row := saveChannelPoolState s.row channel' }
    | .listed none => { s with reaper := .done }
    | _ => s
  | .start i =>
    match s.calls i with
    | .waiting => startCall set s i
    | _ => s
  | .load i ok =>
    match s.calls i with
    | .started =>
      if ok = false ∨ s.row.channelInfo.isMultiKey = false then s.finish i false 0 else s.move i (.loaded s.row)
    | _ => s
  | .park i =>
    match s.calls i with
    | .loaded channel =>
      let (channel',allParkedUntil) := parkIn (set.calls i) channel
      s.move i (.parked channel channel' allParkedUntil)
    | _ => s
  | .save i ok =>
    match s.calls i with
    | .parked _ channel allParkedUntil =>
      if ok = false then s.finish i false 0
      else { s with row := saveWithoutKey s.row channel }.finish i true allParkedUntil
    | _ => s

def begin (row : Channel) (cached : Option Channel) : System := { row, cached }

/-! What a parking ought to leave. -/

/-- The key of the index is off until a time after `now`. -/
def Parked (now : ℤ) (idx : ℕ) (info : ChannelInfo) : Prop :=
  info.multiKeyStatusList.get? idx = some (idx,.autoDisabled) ∧
    ∃ u, info.multiKeyCooldownUntil.get? idx = some (idx,u) ∧ now < u

def indexOf (s : System) (call : Call) : Option ℕ := s.row.keys.findIdx? (· = call.usingKey)

/-- A call has returned true that parked the key of the index beyond `now`. -/
def Due (set : Setting) (s : System) (idx : ℕ) : Prop :=
  ∃ i u, s.calls i = .returned true u ∧ set.now < (set.calls i).cooldownUntil ∧ indexOf s (set.calls i) = some idx

def KeepsParkings (set : Setting) (s : System) : Prop := ∀ idx, Due set s idx → Parked set.now idx s.row.channelInfo

/-- What a save is made from has the parkings that have been reported since it was read; a call on a
parked key parks it beyond `now` again. -/
def Intact (set : Setting) (s : System) : Act → Prop
  | .reap true => ∀ channel, s.reaper = .listed (some channel) → (reapChannel set.now channel).2 ≠ 0 →
      ∀ idx, Due set s idx → Parked set.now idx channel.channelInfo
  | .save i true => ∀ loaded channel u, s.calls i = .parked loaded channel u → ∀ idx, Due set s idx →
      if indexOf s (set.calls i) = some idx then set.now < (set.calls i).cooldownUntil
      else Parked set.now idx loaded.channelInfo
  | _ => True

/-! The two edits. -/

lemma parked_parkIn : Parked now idx (parkIn call ch).1.channelInfo ↔
      if ch.keys.findIdx? (· = call.usingKey) = some idx then now < call.cooldownUntil
      else Parked now idx ch.channelInfo := by
  have hpark : ∀ index, Parked now idx (parkKey ch.channelInfo index call.cooldownUntil) ↔
      if index = idx then now < call.cooldownUntil else Parked now idx ch.channelInfo := by
    intro index
    by_cases h : index = idx
    · simp [Parked,parkKey,get?_put,h]
    · simp [Parked,parkKey,get?_put,h,Ne.symm h]
  unfold parkIn applyMultiKeyCooldownOpt
  split
  · next hnone => simp [hnone]
  · next index hindex =>
    dsimp only
    split <;> simpa [hindex] using hpark index

lemma get?_foldl_clear (indices : List ℕ) (info : ChannelInfo) (idx : ℕ) :
    (indices.foldl clearMultiKeyCooldown info).multiKeyStatusList.get? idx
        = (if idx ∈ indices then none else info.multiKeyStatusList.get? idx) ∧
      (indices.foldl clearMultiKeyCooldown info).multiKeyCooldownUntil.get? idx
        = if idx ∈ indices then none else info.multiKeyCooldownUntil.get? idx := by
  induction indices generalizing info with
  | nil => simp
  | cons i indices ih =>
    rw [List.foldl_cons,(ih _).1,(ih _).2]
    by_cases hi : idx = i <;> by_cases hmem : idx ∈ indices <;>
      simp [clearMultiKeyCooldown,get?_delete,hi]

lemma parked_reapChannel :
    Parked now idx (reapChannel now ch).1.channelInfo ↔ Parked now idx ch.channelInfo := by
  unfold reapChannel
  split
  · rfl
  · split
    · rfl
    · obtain ⟨hstatus,hunt⟩ := get?_foldl_clear (expired ch.channelInfo now) ch.channelInfo idx
      simp only [Parked,hstatus,hunt]
      by_cases hmem : idx ∈ expired ch.channelInfo now
      · simp only [hmem,if_true,reduceCtorEq,false_and,false_iff,not_and]
        rintro - ⟨u,hu,hlt⟩
        obtain ⟨u',hu',-,hle⟩ := mem_expired.mp hmem
        rw [hu] at hu'
        obtain rfl := congrArg Prod.snd (Option.some.inj hu')
        exact absurd hlt (not_lt.mpr hle)
      · simp only [hmem,if_false]

/-! One step. -/

section
variable {set : Setting}

structure Copies (set : Setting) (s : System) : Prop where
  loaded : ∀ i channel, s.calls i = .loaded channel → channel.keys = s.row.keys
  parked : ∀ i loaded channel u, s.calls i = .parked loaded channel u →
    loaded.keys = s.row.keys ∧ channel = (parkIn (set.calls i) loaded).1

structure Quiet (set : Setting) (s t : System) : Prop where
  keys : t.row.keys = s.row.keys
  info : t.row.channelInfo = s.row.channelInfo
  reports : ∀ i u, t.calls i = .returned true u → s.calls i = .returned true u

lemma Quiet.due (h : Quiet set s t) (hdue : Due set t idx) : Due set s idx := by
  obtain ⟨i,u,hret,hlater,hidx⟩ := hdue
  exact ⟨i,u,h.reports i u hret,hlater,by rwa [indexOf,h.keys] at hidx⟩

lemma Quiet.keepsParkings (h : Quiet set s t) (hs : KeepsParkings set s) : KeepsParkings set t := by
  intro idx hdue
  rw [h.info]
  exact hs idx (h.due hdue)

lemma Quiet.of_same (hrow : t.row = s.row) (hcalls : t.calls = s.calls) : Quiet set s t :=
  ⟨by rw [hrow],by rw [hrow],fun i u h => hcalls ▸ h⟩

inductive Advance (set : Setting) (s : System) (j : ℕ) : Phase → Prop
  | same {phase : Phase} (h : s.calls j = phase) : Advance set s j phase
  | started : Advance set s j .started
  | loaded : Advance set s j (.loaded s.row)
  | parked {channel : Channel} (h : s.calls j = .loaded channel) :
      Advance set s j (.parked channel (parkIn (set.calls j) channel).1 (parkIn (set.calls j) channel).2)
  | returned (ok : Bool) (u : ℤ) : Advance set s j (.returned ok u)

lemma advance_update {t : System} (h : Advance set s i phase) (hcalls : t.calls = Function.update s.calls i phase) (j : ℕ) :
    Advance set s j (t.calls j) := by
  rw [hcalls,update_apply]
  split
  · next hj => exact hj ▸ h
  · exact .same rfl

structure Calm (set : Setting) (s t : System) : Prop extends Quiet set s t where
  advance : ∀ j, Advance set s j (t.calls j)

lemma Calm.of_same (hrow : t.row = s.row) (hcalls : t.calls = s.calls) : Calm set s t :=
  ⟨.of_same hrow hcalls,fun _ => .same (by rw [hcalls])⟩

lemma calm_update (hrow : t.row = s.row) (hcalls : t.calls = Function.update s.calls i phase)
    (hadv : Advance set s i phase) (hphase : ∀ u, phase ≠ .returned true u) : Calm set s t := by
  refine ⟨⟨by rw [hrow],by rw [hrow],fun j u h => ?_⟩,advance_update hadv hcalls⟩
  rw [hcalls,update_apply] at h
  split at h
  · exact absurd h (hphase u)
  · exact h

lemma calm_startCall : Calm set s (startCall set s i) := by
  unfold startCall
  split
  · exact calm_update rfl rfl (.returned ..) (by simp)
  · split
    · exact calm_update rfl rfl .started (by simp)
    · split
      · exact .of_same rfl rfl
      · split
        · exact calm_update rfl rfl (.returned ..) (by simp)
        · split
          · exact calm_update rfl rfl (.returned ..) (by simp)
          · exact calm_update rfl rfl .started (by simp)

/-- Every step but a save that goes through. -/
def Act.writes : Act → Bool
  | .reap saved => saved
  | .save _ ok => ok
  | _ => false

lemma calm_step (h : act.writes = false) : Calm set s (step set s act) := by
  cases act with
  | list =>
    simp only [step]
    split <;> exact .of_same rfl rfl
  | reap saved =>
    obtain rfl : saved = false := h
    simp only [step]
    split
    · simp only [or_true]
      exact .of_same rfl rfl
    · exact .of_same rfl rfl
    · exact .of_same rfl rfl
  | start i =>
    simp only [step]
    split
    · exact calm_startCall
    · exact .of_same rfl rfl
  | load i ok =>
    simp only [step]
    split
    · split
      · exact calm_update rfl rfl (.returned ..) (by simp)
      · exact calm_update rfl rfl .loaded (by simp)
    · exact .of_same rfl rfl
  | park i =>
    simp only [step]
    split
    · next channel h => exact calm_update rfl rfl (.parked h) (by simp)
    · exact .of_same rfl rfl
  | save i ok =>
    obtain rfl : ok = false := h
    simp only [step]
    split
    · exact calm_update rfl rfl (.returned ..) (by simp)
    · exact .of_same rfl rfl

lemma step_keeps : (step set s act).row.keys = s.row.keys ∧ ∀ j, Advance set s j ((step set s act).calls j) := by
  cases hw : act.writes with
  | false => exact ⟨(calm_step hw).keys,(calm_step hw).advance⟩
  | true =>
    cases act with
    | reap saved =>
      simp only [step]
      split
      · split <;> exact ⟨rfl,fun _ => .same rfl⟩
      · exact ⟨rfl,fun _ => .same rfl⟩
      · exact ⟨rfl,fun _ => .same rfl⟩
    | save i ok =>
      simp only [step]
      split
      · split <;> exact ⟨rfl,advance_update (.returned ..) rfl⟩
      · exact ⟨rfl,fun _ => .same rfl⟩
    | _ => cases hw

lemma Copies.step (h : Copies set s) (act : Act) : Copies set (PoolReaper.step set s act) := by
  constructor
  · intro i ch hphase
    have hadv := hphase ▸ step_keeps.2 i
    rw [step_keeps.1]
    cases hadv with
    | same hbefore => exact h.loaded i ch hbefore
    | loaded => rfl
  · intro i loaded ch u hphase
    have hadv := hphase ▸ step_keeps.2 i
    rw [step_keeps.1]
    cases hadv with
    | same hbefore => exact h.parked i loaded ch u hbefore
    | parked hbefore => exact ⟨h.loaded i loaded hbefore,rfl⟩

lemma copies_begin : Copies set (begin row cached) :=
  ⟨fun _ _ h => (nomatch h),fun _ _ _ _ h => (nomatch h)⟩

lemma keepsParkings_begin : KeepsParkings set (begin row cached) := by
  rintro idx ⟨i,u,hret,-⟩
  cases hret

lemma keepsParkings_reap (hlisted : s.reaper = .listed (some ch))
    (hreco : (reapChannel set.now ch).2 ≠ 0) :
    KeepsParkings set (step set s (.reap true)) ↔ ∀ idx, Due set s idx → Parked set.now idx ch.channelInfo := by
  have hstep : step set s (.reap true)
      = { s with reaper := .done, row := saveChannelPoolState s.row (reapChannel set.now ch).1 } := by
    simp [step,hlisted,hreco]
  rw [hstep]
  exact forall_congr' fun idx => imp_congr Iff.rfl parked_reapChannel

lemma due_report
    (hpar : s.calls i = .parked loaded channel u) (hcalls : t.calls = Function.update s.calls i (.returned true v))
    (hkeys : t.row.keys = s.row.keys) :
    Due set t idx ↔ Due set s idx ∨ set.now < (set.calls i).cooldownUntil ∧ indexOf s (set.calls i) = some idx := by
  simp only [Due,indexOf,hkeys,hcalls]
  constructor
  · rintro ⟨j,w,hret,hlater,hidx⟩
    rw [update_apply] at hret
    split at hret
    · next hj => exact .inr ⟨hj ▸ hlater,hj ▸ hidx⟩
    · exact .inl ⟨j,w,hret,hlater,hidx⟩
  · rintro (⟨j,w,hret,hlater,hidx⟩ | ⟨hlater,hidx⟩)
    · have hj : j ≠ i := by
        rintro rfl
        rw [hpar] at hret
        cases hret
      exact ⟨j,w,by rwa [update_of_ne hj],hlater,hidx⟩
    · exact ⟨i,v,update_self ..,hlater,hidx⟩

lemma keepsParkings_save (hcopies : Copies set s) (hpar : s.calls i = .parked loaded ch u) :
    KeepsParkings set (step set s (.save i true)) ↔ ∀ idx, Due set s idx →
      if indexOf s (set.calls i) = some idx then set.now < (set.calls i).cooldownUntil
      else Parked set.now idx loaded.channelInfo := by
  obtain ⟨hkeys,rfl⟩ := hcopies.parked i loaded ch u hpar
  have hstep : step set s (.save i true)
      = { s with row := saveWithoutKey s.row (parkIn (set.calls i) loaded).1 }.finish i true u := by
    simp [step,hpar]
  have hrow : ∀ idx, Parked set.now idx (step set s (.save i true)).row.channelInfo ↔
      if indexOf s (set.calls i) = some idx then set.now < (set.calls i).cooldownUntil
      else Parked set.now idx loaded.channelInfo := by
    intro idx
    rw [hstep,indexOf,← hkeys]
    exact parked_parkIn
  have hcalls : (step set s (.save i true)).calls = update s.calls i (.returned true u) := by
    rw [hstep]
    rfl
  constructor
  · intro h idx hd
    exact (hrow idx).mp (h idx ((due_report hpar hcalls step_keeps.1).mpr (.inl hd)))
  · intro h idx hd
    rw [hrow idx]
    rcases (due_report hpar hcalls step_keeps.1).mp hd with hold | ⟨hlater,hown⟩
    · exact h idx hold
    · rw [if_pos hown]
      exact hlater

theorem step_cases (set : Setting) (s : System) (act : Act) :
    (Quiet set s (step set s act) ∧ Intact set s act) ∨
    (∃ ch, act = .reap true ∧ s.reaper = .listed (some ch) ∧ (reapChannel set.now ch).2 ≠ 0) ∨
    ∃ i loaded ch u, act = .save i true ∧ s.calls i = .parked loaded ch u := by
  cases hw : act.writes with
  | false =>
    refine .inl ⟨(calm_step hw).toQuiet,?_⟩
    cases act with
    | reap saved => cases saved <;> trivial
    | save i ok => cases ok <;> trivial
    | _ => trivial
  | true =>
    cases act with
    | reap saved =>
      obtain rfl : saved := hw
      by_cases hwri : ∃ ch, s.reaper = .listed (some ch) ∧ (reapChannel set.now ch).2 ≠ 0
      · obtain ⟨ch,hlisted,hreco⟩ := hwri
        exact .inr (.inl ⟨ch,rfl,hlisted,hreco⟩)
      · refine .inl ⟨?_,fun ch hlisted hreco => absurd ⟨ch,hlisted,hreco⟩ hwri⟩
        simp only [step]
        split
        · next ch hlisted =>
          have hzero := not_not.mp fun hne => hwri ⟨ch,hlisted,hne⟩
          simp only [hzero]
          exact .of_same rfl rfl
        · exact .of_same rfl rfl
        · exact .of_same rfl rfl
    | save i ok =>
      obtain rfl : ok := hw
      by_cases hwri : ∃ loaded ch u, s.calls i = .parked loaded ch u
      · obtain ⟨loaded,ch,u,hpar⟩ := hwri
        exact .inr (.inr ⟨i,loaded,ch,u,rfl,hpar⟩)
      · refine .inl ⟨?_,fun loaded ch u hpar => absurd ⟨loaded,ch,u,hpar⟩ hwri⟩
        simp only [step]
        split
        · next loaded ch u hpar => exact absurd ⟨loaded,ch,u,hpar⟩ hwri
        · exact .of_same rfl rfl
    | _ => cases hw

lemma keepsParkings_step (hcopies : Copies set s) (hs : KeepsParkings set s) (act : Act) :
    KeepsParkings set (step set s act) ↔ Intact set s act := by
  rcases step_cases set s act with ⟨hquiet,hint⟩ | ⟨ch,rfl,hlisted,hreco⟩ |
    ⟨i,loaded,ch,u,rfl,hpar⟩
  · exact iff_of_true (hquiet.keepsParkings hs) hint
  · rw [keepsParkings_reap hlisted hreco,Intact,hlisted]
    constructor
    · rintro h _ ⟨⟩ -
      exact h
    · intro h
      exact h ch rfl hreco
  · rw [keepsParkings_save hcopies hpar,Intact,hpar]
    constructor
    · rintro h _ _ _ ⟨⟩
      exact h
    · intro h
      exact h loaded ch u rfl

theorem keepsParkings_iff_intact (set : Setting) (row : Channel) (cached : Option Channel) (acts : List Act) :
    Always (step set) (KeepsParkings set) (begin row cached) acts ↔
      Along (step set) (Intact set) (begin row cached) acts :=
  always_iff_along (fun _ act h => h.step act) (fun _ act hcopies hs => keepsParkings_step hcopies hs act) acts
    copies_begin keepsParkings_begin

end

/-! A parking that is lost. -/

def cooledDown : Channel where
  id := 1
  keys := ["a","b"]
  models := []
  group := []
  channelInfo := {
    isMultiKey := true
    multiKeySize := 2
    multiKeyStatusList := put .empty (0,.autoDisabled)
    multiKeyCooldownUntil := put .empty (0,50) }

def oneCall : Setting where
  memoryCacheEnabled := true
  now := 100
  calls _ := { usingKey := "b", cooldownUntil := 200 }

theorem reap_loses_parking :
    let s := run (step oneCall) (begin cooledDown (some cooledDown))
      [.list,.start 0,.load 0 true,.park 0,.save 0 true,.reap true]
    s.calls 0 = .returned true 50 ∧ s.reaper = .done ∧ indexOf s (oneCall.calls 0) = some 1 ∧
      s.row.channelInfo.multiKeyStatusList.get? 1 = none ∧ s.row.channelInfo.multiKeyCooldownUntil.get? 1 = none ∧
      ¬KeepsParkings oneCall s := by
  intro s
  have hreturned : s.calls 0 = .returned true 50 := by decide +kernel
  have hindex : indexOf s (oneCall.calls 0) = some 1 := by decide +kernel
  have hstatus : s.row.channelInfo.multiKeyStatusList.get? 1 = none := by decide +kernel
  refine ⟨hreturned,by decide +kernel,hindex,hstatus,by decide +kernel,fun hkeeps => ?_⟩
  have hpar := hkeeps 1 ⟨0,50,hreturned,by decide,hindex⟩
  exact nomatch hpar.1

end LurusHub.PoolReaper
