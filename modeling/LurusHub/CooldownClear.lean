import LurusHub.ChannelCooldown

/-! A manual clear and the snapshots. A refresh that started before a stamp of the clear and merges
after it discards the channel's slots. One that starts after the first stamp, reads before the
removal and merges before the second stamp brings them back. -/
namespace LurusHub.ChannelCooldown
open ChannelSelect Transition KeyedTable List Option

def Lacks (d : Deadlines) (channelID : ℤ) : Prop := ∀ row ∈ d.rows, row.1.1 ≠ channelID
  deriving Decidable

lemma Lacks.deleteWhere (h : Lacks d channelID) (p : Slot × ℤ → Bool) :
    Lacks (d.deleteWhere p) channelID := fun row hrow => h row (mem_filter.mp hrow).1

lemma lacks_deleteWhere (d : Deadlines) : Lacks (d.deleteWhere fun row => row.1.1 = channelID) channelID := by
  intro row hrow
  simpa using (mem_filter.mp hrow).2

lemma Lacks.deadline_eq (h : Lacks d channelID) : deadline d (channelID,keyIdx) = 0 := by
  have hnone : d.get? (channelID,keyIdx) = none :=
    get?_eq_none.mpr fun row hrow heq => h row hrow (congrArg Prod.fst heq)
  rw [deadline,hnone]
  rfl

lemma coolingUntil_of_lacks (hlocal : Lacks cooldowns.cooldownLocal channelID)
    (hrem : Lacks cooldowns.cooldownRemote channelID) : coolingUntil cooldowns now channelID keyIdx = 0 := by
  simp [coolingUntil,hlocal.deadline_eq,hrem.deadline_eq]

/-! What a run may do. -/

def Thread.marking : Thread → Option Slot
  | .markBegun slot _ _ => some slot
  | .markWritten slot _ _ => some slot
  | .markSent slot _ _ _ => some slot
  | _ => none

def Marks (channelID : ℤ) (s : Replica) : Event → Prop
  | .mark _ slot _ => slot.1 = channelID
  | .advance id _ => (s.threads id).marking.map Prod.fst = some channelID
  | .foreign (.record slot _ _) => slot.1 = channelID
  | _ => False

/-- How far a clear is: 3 with its lock section, 5 with the removal, 6 when it has returned. -/
def Thread.progress : Thread → ℕ
  | .clearBegun _ => 1
  | .clearStamped _ => 2
  | .clearEmptied _ => 3
  | .clearListed _ _ => 4
  | .clearRemoved _ => 5
  | .clearReturned => 6
  | _ => 0

structure Undisturbed (c : ℕ) (channelID : ℤ) (s : Replica) (e : Event) : Prop where
  own : e.thread = some c → e = .clear c channelID ∨ e = .advance c .ok
  noMark : s.threads c ≠ .idle → ¬Marks channelID s e

/-- The snapshot that a refresh has read, with the generation that it started with. -/
def Thread.snapshot : Thread → Option (ℕ × Deadlines)
  | .refreshRead _ startGen snap _ => some (startGen,snap)
  | _ => none

/-- A refresh that started after the last stamp merges a snapshot that lists the channel, while the clear is between its
lock section and its second stamp. -/
def StaleMerge (c : ℕ) (channelID : ℤ) (s : Replica) : Event → Prop
  | .advance id _ => 3 ≤ (s.threads c).progress ∧ (s.threads c).progress ≤ 5 ∧
      ∃ p ∈ (s.threads id).snapshot, s.cooldownClearedGen channelID ≤ p.1 ∧ ¬Lacks p.2 channelID
  | _ => False

instance (channelID : ℤ) (s : Replica) : ∀ e, Decidable (Marks channelID s e)
  | .mark _ _ _ => by dsimp only [Marks]; infer_instance
  | .advance _ _ => by dsimp only [Marks]; infer_instance
  | .foreign (.record _ _ _) => by dsimp only [Marks]; infer_instance
  | .foreign (.remove _) | .tick _ | .refresh _ | .clear _ _ => .isFalse id

instance (c : ℕ) (channelID : ℤ) (s : Replica) (e : Event) : Decidable (Undisturbed c channelID s e) :=
  decidable_of_iff _ ⟨fun h => ⟨h.1,h.2⟩,fun h => And.intro h.own h.noMark⟩

instance (c : ℕ) (channelID : ℤ) (s : Replica) : ∀ e, Decidable (StaleMerge c channelID s e)
  | .advance _ _ => by dsimp only [StaleMerge]; infer_instance
  | .tick _ | .mark _ _ _ | .refresh _ | .clear _ _ | .foreign _ => .isFalse id

/-! Generations. -/

def Thread.startGen : Thread → Option ℕ
  | .refreshStarted _ startGen => some startGen
  | .refreshRead _ startGen _ _ => some startGen
  | _ => none

def StartedBy (gen : ℕ) (t : Thread) : Prop := ∀ startGen ∈ t.startGen, startGen ≤ gen

structure Generations (s : Replica) : Prop where
  started : ∀ id, StartedBy s.cooldownGen (s.threads id)
  stamped : ∀ channelID, s.cooldownClearedGen channelID ≤ s.cooldownGen

lemma stamped_markCooldownCleared (h : ∀ ch, s.cooldownClearedGen ch ≤ s.cooldownGen) :
    s.cooldownClearedGen ch ≤ (markCooldownCleared s channelID).cooldownClearedGen ch ∧
    (markCooldownCleared s channelID).cooldownClearedGen ch ≤ s.cooldownGen+1 := by
  have hch := h ch
  simp only [markCooldownCleared,Function.update_apply]
  split_ifs <;> omega

section
variable (h : Does score s e s')
include h

lemma cleared_eq_or :
    s'.cooldownClearedGen = s.cooldownClearedGen ∨ ∃ ch, s'.cooldownClearedGen = (markCooldownCleared s ch).cooldownClearedGen ∧
      s'.cooldownGen = s.cooldownGen+1 := by
  cases h with
  | stamps _ | restamps _ => exact .inr ⟨_,rfl,rfl⟩
  | _ => exact .inl rfl

lemma read_origin {id : ℕ} (ht : s'.threads id = .refreshRead now startGen snap call) :
    s.threads id = .refreshRead now startGen snap call ∨
      s.threads id = .refreshStarted now startGen ∧ snap = readIndex s now ∧ call = s.redis.served := by
  by_cases hid : e.thread = some id
  · cases h with
    | stays | ticks | foreign => exact .inl ht
    | reads h =>
      obtain rfl := some.inj hid
      rw [threads_goto] at ht
      cases ht
      exact .inr ⟨h,rfl,rfl⟩
    | @passes id' _ _ h =>
      obtain rfl := some.inj hid
      rw [threads_goto] at ht
      subst ht
      generalize s.threads id' = t at h
      cases h
    | sends _ ht' | lists _ ht' =>
      cases hid
      rw [threads_goto] at ht
      subst ht
      simp at ht'
    | _ =>
      cases hid
      rw [threads_goto] at ht
      cases ht
  · exact .inl (threads_frame h hid ▸ ht)

lemma generations_step (hs : Generations s) : Generations s' := by
  have hgen := gen_le h
  have hold : ∀ id, StartedBy s'.cooldownGen (s.threads id) := fun id _ hstart => (hs.started id _ hstart).trans hgen
  refine ⟨?_,fun ch => ?_⟩
  · cases h with
    | stays | ticks | foreign => exact hold
    | starts _ => exact forall_goto hold fun _ hstart => (some.inj hstart).ge
    | @reads id _ _ _ h => exact forall_goto hold fun _ hstart => hold id _ (by rw [h]; exact hstart)
    | @passes id' _ t h =>
      refine forall_goto hold ?_
      generalize s.threads id' = t' at h
      cases h <;> nofun
    | sends _ ht => rcases ht with rfl | rfl <;> exact forall_goto hold nofun
    | lists _ ht => rcases ht with ⟨rfl,-⟩ | rfl <;> exact forall_goto hold nofun
    | _ => exact forall_goto hold nofun
  · rcases cleared_eq_or h with heq | ⟨ch',heq,hnext⟩
    · exact heq ▸ (hs.stamped ch).trans hgen
    · rw [heq,hnext]
      exact (stamped_markCooldownCleared hs.stamped).2

lemma cleared_le (hs : Generations s) (ch : ℤ) : s.cooldownClearedGen ch ≤ s'.cooldownClearedGen ch := by
  rcases cleared_eq_or h with heq | ⟨ch',heq,-⟩
  · rw [heq]
  · rw [heq]
    exact (stamped_markCooldownCleared hs.stamped).1

/-! Slots of the channel. -/

lemma lacks_local (hmark : ¬Marks channelID s e) (hs : Lacks s.cooldowns.cooldownLocal channelID) :
    Lacks s'.cooldowns.cooldownLocal channelID := by
  cases h with
  | writes h _ =>
    intro row hrow
    rcases mem_put.mp hrow with rfl | ⟨hrow,-⟩
    · exact fun heq => hmark (by rw [Marks,h]; exact congrArg some heq)
    · exact hs.deleteWhere _ row hrow
  | merges _ | empties _ => exact hs.deleteWhere _
  | _ => exact hs

lemma lacks_remote
    (hmer : ∀ id o now startGen snap call, e = .advance id o → s.threads id = .refreshRead now startGen snap call →
      Lacks (unstale s startGen snap) channelID)
    (hs : Lacks s.cooldowns.cooldownRemote channelID) : Lacks s'.cooldowns.cooldownRemote channelID := by
  cases h with
  | merges h => exact hmer _ _ _ _ _ _ rfl h
  | empties _ => exact hs.deleteWhere _
  | _ => exact hs

end

lemma live_serve {db : Redis} (h : row ∈ ((db.serve score clock c).live clock).rows)
    (hreco : ∀ slot till now, c = .record slot till now → slot.1 ≠ row.1.1) : row ∈ (db.live clock).rows := by
  have hindex := live_sub h
  cases c with
  | record slot till now =>
    rcases mem_put.mp (mem_filter.mp hindex).1 with rfl | ⟨hrow,-⟩
    · exact absurd rfl (hreco slot till now rfl)
    · exact hrow
  | remove members => exact (mem_filter.mp hindex).1

lemma live_step (h : Does score s e s') (hmark : ¬Marks channelID s e) (hch : row.1.1 = channelID)
    (hrow : row ∈ (s'.redis.live s'.clock).rows) : row ∈ (s.redis.live s.clock).rows := by
  cases h with
  | ticks n => exact live_later (Int.le_add_of_nonneg_right (Int.natCast_nonneg n)) hrow
  | foreign c =>
    refine live_serve hrow fun slot till now hc => ?_
    subst hc
    exact fun heq => hmark (heq.trans hch)
  | sends h _ =>
    refine live_serve hrow fun slot till now hc => ?_
    cases hc
    exact fun heq => hmark (by rw [Marks,h]; exact congrArg some (heq.trans hch))
  | removes _ => exact live_serve hrow nofun
  | _ => exact hrow

lemma lacks_unstale (h : s.cooldownClearedGen channelID ≤ startGen → Lacks snap channelID) :
    Lacks (unstale s startGen snap) channelID := by
  intro row hrow hch
  obtain ⟨hmem,hkeep⟩ := mem_filter.mp hrow
  simp only [Bool.not_eq_true',decide_eq_false_iff_not,not_lt] at hkeep
  exact h (hch ▸ hkeep) row hmem hch

/-! The clear. -/

def Emptied (channelID : ℤ) (s : Replica) : Prop :=
  Lacks s.cooldowns.cooldownLocal channelID ∧ Lacks s.cooldowns.cooldownRemote channelID

def Reached (channelID : ℤ) (s : Replica) : Thread → Prop
  | .idle => True
  | .clearBegun ch => ch = channelID
  | .clearStamped ch => ch = channelID
  | .clearEmptied ch => ch = channelID ∧ Emptied channelID s
  | .clearListed ch members => ch = channelID ∧ Emptied channelID s ∧
      ∀ row ∈ (s.redis.live s.clock).rows, row.1.1 = channelID → row.1 ∈ members
  | .clearRemoved ch => ch = channelID ∧ Emptied channelID s ∧ Lacks (s.redis.live s.clock) channelID
  | .clearReturned => Emptied channelID s ∧ Lacks (s.redis.live s.clock) channelID ∧
      ∀ id now startGen snap call, s.threads id = .refreshRead now startGen snap call →
        s.cooldownClearedGen channelID ≤ startGen → Lacks snap channelID
  | _ => False

structure Holds (c : ℕ) (channelID : ℤ) (s : Replica) : Prop where
  generations : Generations s
  reached : Reached channelID s (s.threads c)

theorem lacks_merge (hs : Holds c channelID s) (hsta : ¬StaleMerge c channelID s e) (hafter : 3 ≤ (s.threads c).progress)
    {id : ℕ} (he : e = .advance id o)
    (ht : s.threads id = .refreshRead now startGen snap call) : Lacks (unstale s startGen snap) channelID := by
  refine lacks_unstale fun hgen => ?_
  by_contra hlis
  by_cases hbetween : (s.threads c).progress ≤ 5
  · subst he
    exact hsta ⟨hafter,hbetween,(startGen,snap),by rw [ht]; rfl,hgen,hlis⟩
  · have hrea := hs.reached
    cases hc : s.threads c with
    | clearReturned =>
      rw [hc] at hrea
      exact hlis (hrea.2.2 id now startGen snap call ht hgen)
    | _ => simp [hc,Thread.progress] at hbetween

lemma holds_other (h : Does score s e s') (hs : Holds c channelID s) (hH : Undisturbed c channelID s e)
    (hsta : ¬StaleMerge c channelID s e) (hother : e.thread ≠ some c) : Holds c channelID s' := by
  have hmark : 3 ≤ (s.threads c).progress → ¬Marks channelID s e := fun hafter => hH.noMark fun hidle => by
    rw [hidle] at hafter
    cases hafter
  have hempty : 3 ≤ (s.threads c).progress → Emptied channelID s → Emptied channelID s' := fun hafter hs' =>
    ⟨lacks_local h (hmark hafter) hs'.1,lacks_remote h (fun _ _ _ _ _ _ he ht => lacks_merge hs hsta hafter he ht) hs'.2⟩
  have hlive : 3 ≤ (s.threads c).progress → ∀ row ∈ (s'.redis.live s'.clock).rows, row.1.1 = channelID →
      row ∈ (s.redis.live s.clock).rows := fun hafter _ hrow hch => live_step h (hmark hafter) hch hrow
  have hrea := hs.reached
  refine ⟨generations_step h hs.generations,?_⟩
  rw [threads_frame h hother]
  generalize s.threads c = t at hempty hlive hrea ⊢
  cases t with
  | clearEmptied => exact ⟨hrea.1,hempty (le_refl 3) hrea.2⟩
  | clearListed | clearRemoved =>
    exact ⟨hrea.1,hempty (by simp [Thread.progress]) hrea.2.1,
      fun row hrow hch => hrea.2.2 row (hlive (by simp [Thread.progress]) row hrow hch) hch⟩
  | clearReturned =>
    refine ⟨hempty (by decide) hrea.1,fun row hrow hch => hrea.2.1 row (hlive (by decide) row hrow hch) hch,?_⟩
    intro id now startGen snap call ht hgen
    rcases read_origin h ht with hbefore | ⟨-,rfl,-⟩
    · exact hrea.2.2 id now startGen snap call hbefore ((cleared_le h hs.generations channelID).trans hgen)
    · exact hrea.2.1.deleteWhere _
  | _ => exact hrea

lemma holds_own (hs : Holds c channelID s) : Holds c channelID (advance score s c .ok) := by
  refine ⟨generations_step (does_advance score s c .ok) hs.generations,?_⟩
  have hrea := hs.reached
  unfold advance
  cases hc : s.threads c with
  | idle | clearReturned => exact hrea
  | clearBegun ch =>
    rw [hc] at hrea
    rw [threads_goto]
    exact hrea
  | clearStamped ch =>
    rw [hc] at hrea
    rw [threads_goto]
    obtain rfl : ch = channelID := hrea
    exact ⟨rfl,lacks_deleteWhere _,lacks_deleteWhere _⟩
  | clearEmptied ch =>
    rw [hc] at hrea
    obtain ⟨rfl,hempty⟩ := hrea
    have hmembers : ∀ row ∈ (s.redis.live s.clock).rows, row.1.1 = ch → row.1 ∈ membersOf s ch := fun row hrow hch =>
      mem_filter.mpr ⟨mem_map_of_mem hrow,decide_eq_true hch⟩
    dsimp only
    split_ifs with hnone
    · rw [threads_goto]
      refine ⟨rfl,hempty,fun row hrow hch => ?_⟩
      have hmem := hmembers row hrow hch
      rw [hnone] at hmem
      cases hmem
    · rw [threads_goto]
      exact ⟨rfl,hempty,hmembers⟩
  | clearListed ch members =>
    rw [hc] at hrea
    rw [threads_goto]
    obtain ⟨rfl,hempty,hlisted⟩ := hrea
    refine ⟨rfl,hempty,fun row hrow hch => ?_⟩
    have hleft := mem_filter.mp (live_sub hrow)
    have hmem := hlisted row hleft.1 hch
    simp [hmem] at hleft
  | clearRemoved ch =>
    rw [hc] at hrea
    rw [threads_goto]
    obtain ⟨rfl,hempty,hlac⟩ := hrea
    -- refreshes under way have started before this stamp
    refine ⟨hempty,hlac,fun id now startGen snap call hread hsta => ?_⟩
    have hne : id ≠ c := by
      rintro rfl
      rw [threads_goto] at hread
      cases hread
    rw [threads_goto_of_ne _ _ hne] at hread
    have hle := hs.generations.started id startGen (by rw [show s.threads id = _ from hread]; rfl)
    simp only [Replica.goto,markCooldownCleared,Function.update_self] at hsta
    omega
  | _ =>
    rw [hc] at hrea
    exact hrea.elim

lemma holds_step (hs : Holds c channelID s) (hH : Undisturbed c channelID s e) (hsta : ¬StaleMerge c channelID s e) :
    Holds c channelID (step score s e) := by
  by_cases hc : e.thread = some c
  · rcases hH.own hc with rfl | rfl
    · simp only [step]
      split
      · next hidle =>
        refine ⟨generations_step (.clears hidle : Does score s (.clear c channelID) _) hs.generations,?_⟩
        rw [threads_goto]
        rfl
      · exact hs
    · exact holds_own hs
  · exact holds_other (does_step score s e) hs hH hsta hc

structure Quiet (s : Replica) : Prop where
  threads : ∀ id, s.threads id = .idle
  stamped : ∀ channelID, s.cooldownClearedGen channelID ≤ s.cooldownGen

lemma holds_quiet (hs : Quiet s) : Holds c channelID s := by
  refine ⟨⟨fun id => ?_,hs.stamped⟩,?_⟩
  · rw [hs.threads]
    nofun
  · rw [hs.threads]
    trivial

/-- A cleared channel stays clear unless a refresh merges before the second stamp. -/
theorem cleared_stays_clear (score : ℤ → ℤ) (c : ℕ) (channelID : ℤ) {s : Replica} (hs : Quiet s) {events : List Event}
    (hundisturbed : Along (step score) (Undisturbed c channelID) s events)
    (hstale : Along (step score) (fun s e => ¬StaleMerge c channelID s e) s events) :
    Always (step score) (fun s => s.threads c = .clearReturned →
      ∀ now keyIdx, coolingUntil s.cooldowns now channelID keyIdx = 0) s events := by
  have hhol := always_of_along (fun _ _ h hG => holds_step h hG.1 hG.2) (holds_quiet hs)
    (hundisturbed.and hstale)
  refine hhol.mono fun s h hreturned now keyIdx => ?_
  have hrea := h.reached
  rw [hreturned] at hrea
  exact coolingUntil_of_lacks hrea.1.1 hrea.1.2

def cooling : Replica where
  clock := 100*second
  redis := { index := empty.put ((7,0),1000) }

lemma quiet_cooling : Quiet cooling := ⟨fun _ => rfl,fun _ => Nat.le_refl 0⟩

/-- The refresh starts, reads and merges between the lock section of the clear and the removal. -/
def undone : List Event :=
  [.clear 0 7,.advance 0 .ok,.advance 0 .ok,
    .refresh 1,.advance 1 .ok,.advance 1 .ok,.advance 1 .ok,
    .advance 0 .ok,.advance 0 .ok,.advance 0 .ok]

theorem clear_undone :
    Along (step id) (Undisturbed 0 7) cooling undone ∧ (run (step id) cooling undone).threads 0 = .clearReturned ∧
    coolingUntil (run (step id) cooling undone).cooldowns 100 7 0 = 1000 := by decide +kernel

/-- The refresh has read the index when the clear begins, and merges before it ends. -/
def discarded : List Event :=
  [.refresh 1,.advance 1 .ok,.advance 1 .ok,
    .clear 0 7,.advance 0 .ok,.advance 0 .ok,.advance 1 .ok,
    .advance 0 .ok,.advance 0 .ok,.advance 0 .ok]

theorem cleared_stays_clear_discarded :
    Always (step id) (fun s => s.threads 0 = .clearReturned → ∀ now keyIdx, coolingUntil s.cooldowns now 7 keyIdx = 0)
      cooling discarded ∧ (run (step id) cooling discarded).threads 0 = .clearReturned :=
  ⟨cleared_stays_clear id 0 7 quiet_cooling (by decide +kernel) (by decide +kernel),by decide +kernel⟩

end LurusHub.ChannelCooldown
