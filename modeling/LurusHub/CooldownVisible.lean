import LurusHub.CooldownClear

/-! A mark and the snapshots. The local copy of a cooldown that has reached Redis is dropped when a
snapshot does not list it, unless it was written after the refresh began. A refresh that begins
after the mark may still have read the index before the mark's call, and drops a cooldown in force.
-/
namespace LurusHub.ChannelCooldown
open ChannelSelect Transition KeyedTable Option

def Only (d : Deadlines) (slot : Slot) (untilSec : ℤ) : Prop := ∀ row ∈ d.rows, row.1 = slot → row.2 = untilSec

variable {d : Deadlines}

lemma Only.sub (h : Only d slot untilSec) (hsub : ∀ row ∈ d'.rows, row ∈ d.rows) :
    Only d' slot untilSec := fun row hrow => h row (hsub row hrow)

lemma Only.deleteWhere (h : Only d slot untilSec) (p : Slot × ℤ → Bool) :
    Only (d.deleteWhere p) slot untilSec := h.sub fun _ hrow => (List.mem_filter.mp hrow).1

lemma mem_deleteWhere (h : row ∈ d.rows) (hp : p row = false) :
    row ∈ (d.deleteWhere p).rows := List.mem_filter.mpr ⟨h,by simp [hp]⟩

lemma deadline_of_mem (h : (slot,untilSec) ∈ d.rows) : deadline d slot = untilSec := by
  have hget := get?_of_mem h
  rw [deadline,hget]
  rfl

lemma deadline_of_only (h : Only d slot till) :
    deadline d slot = till ∨ deadline d slot = 0 := by
  unfold deadline
  cases hget : d.get? slot with
  | none => exact .inr rfl
  | some row => exact .inl (h row (mem_of_get? hget) (key_of_get? hget))

lemma coolingUntil_eq {cooldowns : Cooldowns} (hlocal : (slot,untilSec) ∈ cooldowns.cooldownLocal.rows)
    (hrem : Only cooldowns.cooldownRemote slot untilSec) (hpositive : 0 ≤ untilSec) {now : ℤ} (hnow : now < untilSec) :
    coolingUntil cooldowns now slot.1 slot.2 = untilSec := by
  have hown : deadline cooldowns.cooldownLocal (slot.1,slot.2) = untilSec := deadline_of_mem hlocal
  have hshared : deadline cooldowns.cooldownRemote (slot.1,slot.2) = untilSec ∨
      deadline cooldowns.cooldownRemote (slot.1,slot.2) = 0 := deadline_of_only hrem
  simp only [coolingUntil,hown,if_pos hnow]
  rcases hshared with h | h
  · simp [h]
  · rw [h]
    split_ifs with hlate
    · omega
    · rfl

/-! What a run may do. -/

/-- The thread `m` marks the slot, with the deadline, and no other thread marks it. -/
def Ours (m : ℕ) (slot : Slot) (untilSec : ℤ) (id : ℕ) (slot' : Slot) (untilSec' : ℤ) : Prop :=
  (id = m → slot' = slot ∧ untilSec' = untilSec) ∧ (slot' = slot → id = m)

/-- A change of the index that is not about the slot, by a replica whose clock is not ahead. -/
def Command.Spares (slot : Slot) (clock : ℤ) : Command → Prop
  | .record slot' _ now => slot' ≠ slot ∧ now ≤ clock
  | .remove members => slot ∉ members

/-- The thread `m` is the only mark of the slot, and nothing clears its channel, here or on another replica. -/
def Alone (m : ℕ) (slot : Slot) (untilSec : ℤ) (s : Replica) : Event → Prop
  | .tick _ => True
  | .mark id slot' untilSec' => Ours m slot untilSec id slot' untilSec'
  | .refresh id => id ≠ m
  | .clear id channelID => id ≠ m ∧ channelID ≠ slot.1
  | .advance _ _ => True
  | .foreign c => c.Spares slot s.clock

def Thread.readBy : Thread → Option (ℤ × ℕ)
  | .refreshRead now _ _ call => some (now,call)
  | _ => none

def Thread.acknowledged : Thread → Option (ℤ × ℕ)
  | .markReturned _ _ now (some call) => some (now,call)
  | _ => none

/-- A refresh that began after the mark began, but read the index before the mark's call, merges after the mark has
returned. -/
def Overtaken (m : ℕ) (s : Replica) : Event → Prop
  | .advance id _ => ∃ r ∈ (s.threads id).readBy, ∃ k ∈ (s.threads m).acknowledged, k.1 < r.1 ∧ r.2 ≤ k.2
  | _ => False

structure InTime (m : ℕ) (slot : Slot) (untilSec : ℤ) (s : Replica) (e : Event) : Prop where
  kept : e = .mark m slot untilSec → untilSec*second ≤ s.clock+channelCooldownIndexTTL
  notOvertaken : ¬Overtaken m s e

instance (m : ℕ) (slot : Slot) (untilSec : ℤ) (id : ℕ) (slot' : Slot) (untilSec' : ℤ) :
    Decidable (Ours m slot untilSec id slot' untilSec') := by delta Ours; infer_instance

instance (slot : Slot) (clock : ℤ) : ∀ c : Command, Decidable (c.Spares slot clock)
  | .record _ _ _ => by dsimp only [Command.Spares]; infer_instance
  | .remove members => decidable_of_iff (∀ member ∈ members, ¬slot = member) List.forall_mem_ne

instance (m : ℕ) (slot : Slot) (untilSec : ℤ) (s : Replica) : ∀ e, Decidable (Alone m slot untilSec s e)
  | .tick _ | .advance _ _ => .isTrue trivial
  | .mark _ _ _ | .refresh _ | .clear _ _ | .foreign _ => by dsimp only [Alone]; infer_instance

instance (m : ℕ) (s : Replica) : ∀ e, Decidable (Overtaken m s e)
  | .advance _ _ => by dsimp only [Overtaken]; infer_instance
  | .tick _ | .mark _ _ _ | .refresh _ | .clear _ _ | .foreign _ => .isFalse id

instance (m : ℕ) (slot : Slot) (untilSec : ℤ) (s : Replica) (e : Event) : Decidable (InTime m slot untilSec s e) :=
  decidable_of_iff _ ⟨fun h => ⟨h.1,h.2⟩,fun h => And.intro h.kept h.notOvertaken⟩

/-! What threads carry. -/

/-- What a thread carries fits the replica: past clocks and calls, a generation since which the
channel was not cleared, a snapshot with nothing else for the slot, clears of other channels. -/
def Fits (m : ℕ) (slot : Slot) (untilSec : ℤ) (s : Replica) (id : ℕ) : Thread → Prop
  | .idle => True
  | .markBegun slot' untilSec' now => Ours m slot untilSec id slot' untilSec' ∧ now ≤ s.clock
  | .markWritten slot' untilSec' now => Ours m slot untilSec id slot' untilSec' ∧ now ≤ s.clock
  | .markSent slot' untilSec' _ call => Ours m slot untilSec id slot' untilSec' ∧ call < s.redis.served
  | .markReturned slot' untilSec' _ call => Ours m slot untilSec id slot' untilSec' ∧ ∀ c ∈ call, c < s.redis.served
  | .refreshBegun now => id ≠ m ∧ now ≤ s.clock
  | .refreshStarted now startGen => id ≠ m ∧ now ≤ s.clock ∧ s.cooldownClearedGen slot.1 ≤ startGen
  | .refreshRead _ startGen snap call =>
      id ≠ m ∧ s.cooldownClearedGen slot.1 ≤ startGen ∧ call < s.redis.served ∧ Only snap slot untilSec
  | .refreshReturned => id ≠ m
  | .clearBegun channelID => id ≠ m ∧ channelID ≠ slot.1
  | .clearStamped channelID => id ≠ m ∧ channelID ≠ slot.1
  | .clearEmptied channelID => id ≠ m ∧ channelID ≠ slot.1
  | .clearListed channelID members => id ≠ m ∧ channelID ≠ slot.1 ∧ slot ∉ members
  | .clearRemoved channelID => id ≠ m ∧ channelID ≠ slot.1
  | .clearReturned => id ≠ m

lemma fits_mono {id : ℕ} {t : Thread} (h : Fits m slot till s id t) (hclock : s.clock ≤ s'.clock)
    (hserved : s.redis.served ≤ s'.redis.served) (hcle : s'.cooldownClearedGen slot.1 = s.cooldownClearedGen slot.1) :
    Fits m slot till s' id t := by
  cases t with
  | markBegun | markWritten | refreshBegun => exact ⟨h.1,h.2.trans hclock⟩
  | markSent => exact ⟨h.1,h.2.trans_le hserved⟩
  | markReturned => exact ⟨h.1,fun c hc => (h.2 c hc).trans_le hserved⟩
  | refreshStarted => exact ⟨h.1,h.2.1.trans hclock,hcle.le.trans h.2.2⟩
  | refreshRead => exact ⟨h.1,hcle.le.trans h.2.1,h.2.2.1.trans_le hserved,h.2.2.2⟩
  | idle | refreshReturned | clearBegun | clearStamped | clearEmptied | clearListed | clearRemoved | clearReturned => exact h

lemma served_le (h : Does score s e s') : s.redis.served ≤ s'.redis.served := by
  have hserve : ∀ c, s.redis.served ≤ (s.redis.serve score s.clock c).served := fun c => by
    cases c <;> exact Nat.le_succ _
  cases h with
  | foreign c => exact hserve c
  | sends _ _ | removes _ => exact hserve _
  | reads _ | lists _ _ => exact Nat.le_succ _
  | _ => exact le_refl _

lemma cleared_same (h : Does score s e s') (hfits : ∀ id, Fits m slot untilSec s id (s.threads id)) :
    s'.cooldownClearedGen slot.1 = s.cooldownClearedGen slot.1 := by
  cases h with
  | @stamps id _ _ h | @restamps id _ _ h =>
    have hid := hfits id
    rw [h] at hid
    exact Function.update_of_ne hid.2.symm ..
  | _ => rfl

lemma fits_passes {id : ℕ} (h : Passes t o t') (ht : Fits m slot till s id t) :
    Fits m slot till s id t' := by
  cases h with
  | late _ | notSent => exact ⟨ht.1,nofun⟩
  | tooSoon | notRead _ => exact ht.1
  | notListed _ => exact ht
  | notRemoved => exact ⟨ht.1,ht.2.1⟩

lemma notMem_membersOf (h : channelID ≠ slot.1) : slot ∉ membersOf s channelID := by
  intro hmem
  exact h (of_decide_eq_true (List.mem_filter.mp hmem).2).symm

lemma fits_step (h : Does score s e s') (hA : Alone m slot till s e)
    (hfits : ∀ id, Fits m slot till s id (s.threads id)) (hsta : s.cooldownClearedGen slot.1 ≤ s.cooldownGen)
    (hindex : Only s.redis.index slot till) : ∀ id, Fits m slot till s' id (s'.threads id) := by
  have hold : ∀ id, Fits m slot till s' id (s.threads id) := fun id =>
    fits_mono (hfits id) (clock_le h) (served_le h) (cleared_same h hfits)
  have hat : ∀ {id t}, s.threads id = t → Fits m slot till s' id t := fun ht => ht ▸ hold _
  cases h with
  | stays | ticks | foreign => exact hold
  | marks _ | refreshes _ => exact forall_goto hold ⟨hA,le_refl _⟩
  | clears _ => exact forall_goto hold hA
  | @passes id _ _ h => exact forall_goto hold (fits_passes h (hold id))
  | writes h _ => exact forall_goto hold ⟨(hat h).1,(hat h).2⟩
  | sends h ht =>
    rcases ht with rfl | rfl
    · exact forall_goto hold ⟨(hat h).1,Nat.lt_succ_self _⟩
    · exact forall_goto hold ⟨(hat h).1,nofun⟩
  | syncs h =>
    refine forall_goto hold ⟨(hat h).1,fun c hc => ?_⟩
    cases hc
    exact (hat h).2
  | starts h => exact forall_goto hold ⟨(hat h).1,(hat h).2,hsta⟩
  | reads h =>
    exact forall_goto hold ⟨(hat h).1,(hat h).2.2,Nat.lt_succ_self _,(hindex.sub fun _ => live_sub).deleteWhere _⟩
  | merges h => exact forall_goto hold (hat h).1
  | stamps h | empties h => exact forall_goto hold ⟨(hat h).1,(hat h).2⟩
  | lists h ht =>
    rcases ht with ⟨rfl,-⟩ | rfl
    · exact forall_goto hold ⟨(hat h).1,(hat h).2⟩
    · exact forall_goto hold ⟨(hat h).1,(hat h).2,notMem_membersOf (hat h).2⟩
  | removes h => exact forall_goto hold ⟨(hat h).1,(hat h).2.1⟩
  | restamps h => exact forall_goto hold (hat h).1

/-! The index. -/

structure Stored (db : Redis) (slot : Slot) (untilSec : ℤ) : Prop where
  listed : (slot,untilSec) ∈ db.index.rows
  lasts : ∀ t ∈ db.expiresAt, untilSec*second ≤ t

lemma unix_lt_iff : unix clock < till ↔ clock < till*second :=
  Int.ediv_lt_iff_lt_mul (by decide)

lemma unix_mono (h : now ≤ clock) : unix now ≤ unix clock := Int.ediv_le_ediv (by decide) h

section Index
variable {db : Redis}

lemma Stored.live (h : Stored db slot till) (hclock : unix clock < till) : (slot,till) ∈ (db.live clock).rows := by
  unfold Redis.live
  rw [if_neg]
  · exact h.listed
  · intro hexpired
    obtain ⟨t,ht,hle⟩ := any_eq_true _ _ |>.mp hexpired
    have hlas := h.lasts t ht
    have hbefore := unix_lt_iff.mp hclock
    have hafter := of_decide_eq_true hle
    omega

lemma Stored.serve (h : Stored db slot untilSec) (hclock : unix clock < untilSec)
    (hwit : untilSec*second ≤ clock+channelCooldownIndexTTL) {c : Command} (hc : c.Spares slot clock) :
    Stored (db.serve score clock c) slot untilSec := by
  cases c with
  | record slot' untilSec' now =>
    have hkept := unix_mono hc.2
    refine ⟨mem_deleteWhere (mem_put.mpr (.inr ⟨h.live hclock,hc.1.symm⟩)) (decide_eq_false ?_),fun t ht => ?_⟩
    · omega
    · cases ht
      exact hwit
  | remove members => exact ⟨mem_deleteWhere (h.live hclock) (decide_eq_false hc),h.lasts⟩

lemma stored_record (hsco : score untilSec = untilSec) (hclock : unix clock < untilSec)
    (hwit : untilSec*second ≤ clock+channelCooldownIndexTTL) (hnow : now ≤ clock) :
    Stored (db.serve score clock (.record slot untilSec now)) slot untilSec := by
  have hkept := unix_mono hnow
  refine ⟨mem_deleteWhere (mem_put.mpr (.inl (by rw [hsco]))) (decide_eq_false ?_),fun t ht => ?_⟩
  · omega
  · cases ht
    exact hwit

lemma only_serve (h : Only db.index slot untilSec) {c : Command}
    (hc : ∀ untilSec' now, c = .record slot untilSec' now → score untilSec' = untilSec) :
    Only (db.serve score clock c).index slot untilSec := by
  have hlive : Only (db.live clock) slot untilSec := h.sub fun _ => live_sub
  cases c with
  | record slot' untilSec' now =>
    refine Only.deleteWhere (fun row hrow hslot => ?_) _
    rcases mem_put.mp hrow with rfl | ⟨hrow,-⟩
    · subst hslot
      exact hc untilSec' now rfl
    · exact hlive row hrow hslot
  | remove members => exact hlive.deleteWhere _

lemma only_serve_of_spares (h : Only db.index slot untilSec) (hc : c.Spares slot clock) :
    Only (db.serve score clock c).index slot untilSec := by
  refine only_serve h fun untilSec' now heq => ?_
  subst heq
  exact absurd rfl hc.1

end Index

/-! The mark. -/

def Written (slot : Slot) (untilSec : ℤ) (s : Replica) : Prop := (slot,untilSec) ∈ s.cooldowns.cooldownLocal.rows

structure Shared (slot : Slot) (untilSec : ℤ) (s : Replica) (call : ℕ) : Prop where
  stored : Stored s.redis slot untilSec
  read : ∀ id now startGen snap call', s.threads id = .refreshRead now startGen snap call' → call < call' →
    (slot,untilSec) ∈ snap.rows

/-- What holds before the deadline, from where the mark has come to. -/
def Stands (slot : Slot) (untilSec : ℤ) (s : Replica) : Thread → Prop
  | .markWritten _ _ _ => Written slot untilSec s
  | .markSent _ _ _ call => Written slot untilSec s ∧ Shared slot untilSec s call
  | .markReturned _ _ _ none => Written slot untilSec s
  | .markReturned _ _ _ (some call) => Written slot untilSec s ∧ Shared slot untilSec s call
  | _ => True

structure Shows (m : ℕ) (slot : Slot) (untilSec : ℤ) (s : Replica) : Prop where
  fits : ∀ id, Fits m slot untilSec s id (s.threads id)
  stamped : s.cooldownClearedGen slot.1 ≤ s.cooldownGen
  within : s.threads m ≠ .idle → untilSec*second ≤ s.clock+channelCooldownIndexTTL
  shared : Only s.cooldowns.cooldownRemote slot untilSec
  index : Only s.redis.index slot untilSec
  synced : ∀ row ∈ s.cooldownSynced.rows, row.1 = slot → (s.threads m).acknowledged.map Prod.fst = some row.2
  stands : unix s.clock < untilSec → Stands slot untilSec s (s.threads m)

section Mark
variable {s s' : Replica}

lemma Shows.at (hs : Shows m slot till s) {id : ℕ} (h : s.threads id = t) : Fits m slot till s id t :=
  h ▸ hs.fits id

lemma Shows.unsynced (hs : Shows m slot till s) (h : (s.threads m).acknowledged = none) {row : Slot × ℤ}
    (hrow : row ∈ s.cooldownSynced.rows) : row.1 ≠ slot := by
  intro hslot
  have hnoted := hs.synced row hrow hslot
  rw [h] at hnoted
  cases hnoted

lemma Stands.acknowledged (h : Stands slot till s t) (hk : k ∈ t.acknowledged) :
    Written slot till s ∧ Shared slot till s k.2 := by
  cases t with
  | markReturned _ _ now call =>
    cases call with
    | none => cases hk
    | some call =>
      cases hk
      exact h
  | _ => cases hk

theorem outdated_eq_false (hs : Shows m slot till s) (hclock : unix s.clock < till) {id : ℕ} {o : Outcome} {now : ℤ}
    {startGen : ℕ} {snap : Deadlines} {call : ℕ} (h : s.threads id = .refreshRead now startGen snap call)
    (hT : ¬Overtaken m s (.advance id o)) : outdated s now (unstale s startGen snap) slot = false := by
  unfold outdated
  cases hget : s.cooldownSynced.get? slot with
  | none => rfl
  | some row =>
    obtain ⟨k,hk,hrow⟩ := map_eq_some_iff.mp (hs.synced row (mem_of_get? hget) (key_of_get? hget))
    obtain ⟨hlocal,hshared⟩ := (hs.stands hclock).acknowledged hk
    by_cases hbefore : row.2 < now
    · have hlater : k.2 < call := by
        by_contra hle
        exact hT ⟨(now,call),by rw [h]; rfl,k,hk,hrow ▸ hbefore,not_lt.mp hle⟩
      have hkept : (slot,till) ∈ (unstale s startGen snap).rows :=
        mem_deleteWhere (hshared.read id now startGen snap call h hlater) (decide_eq_false (not_lt.mpr (hs.at h).2.1))
      simp [deadline_of_mem hkept,deadline_of_mem hlocal]
    · simp [hbefore]

section
variable {m : ℕ} {slot : Slot} {till : ℤ} (h : Does score s e s') (hs : Shows m slot till s)
include h hs

lemma redis_other (hA : Alone m slot till s e)
    (hother : e.thread ≠ some m) :
    (s'.redis.index = s.redis.index ∧ s'.redis.expiresAt = s.redis.expiresAt) ∨
      ∃ c : Command, c.Spares slot s.clock ∧ s'.redis = s.redis.serve score s.clock c := by
  cases h with
  | foreign c => exact .inr ⟨c,hA,rfl⟩
  | sends h _ =>
    obtain ⟨hours,hnow⟩ := hs.at h
    exact .inr ⟨.record _ _ _,⟨fun hslot => hother (congrArg some (hours.2 hslot)),hnow⟩,rfl⟩
  | removes h => exact .inr ⟨.remove _,(hs.at h).2.2,rfl⟩
  | _ => exact .inl ⟨rfl,rfl⟩

lemma shared_step : Only s'.cooldowns.cooldownRemote slot till := by
  cases h with
  | merges h => exact (hs.at h).2.2.2.deleteWhere _
  | empties _ => exact hs.shared.deleteWhere _
  | _ => exact hs.shared

lemma synced_other (hother : e.thread ≠ some m) {row : Slot × ℤ}
    (hrow : row ∈ s'.cooldownSynced.rows) (hslot : row.1 = slot) : row ∈ s.cooldownSynced.rows := by
  cases h with
  | writes _ _ => exact (mem_delete.mp hrow).1
  | merges _ | empties _ => exact (List.mem_filter.mp hrow).1
  | syncs h =>
    simp only [markSynced] at hrow
    split_ifs at hrow
    · rcases mem_put.mp hrow with rfl | ⟨hrow,-⟩
      · exact absurd (congrArg some ((hs.at h).1.2 hslot)) hother
      · exact hrow
    · exact hrow
  | _ => exact hrow

lemma local_other (hT : InTime m slot till s e)
    (hother : e.thread ≠ some m) (hclock : unix s.clock < till) (hlocal : Written slot till s) :
    Written slot till s' := by
  cases h with
  | writes h _ =>
    obtain ⟨hours,hnow⟩ := hs.at h
    have hkept := unix_mono hnow
    refine mem_put.mpr (.inr ⟨mem_deleteWhere hlocal (decide_eq_false ?_),fun hslot => ?_⟩)
    · omega
    · exact hother (congrArg some (hours.2 hslot.symm))
  | merges h => exact mem_deleteWhere hlocal (outdated_eq_false hs hclock h hT.notOvertaken)
  | empties h => exact mem_deleteWhere hlocal (decide_eq_false (hs.at h).2.symm)
  | _ => exact hlocal

lemma shared_other (hA : Alone m slot till s e)
    (hother : e.thread ≠ some m) (hclock : unix s.clock < till) (hwit : till*second ≤ s.clock+channelCooldownIndexTTL)
    {call : ℕ} (hshared : Shared slot till s call) : Shared slot till s' call := by
  refine ⟨?_,fun id now startGen snap call' hread hlater => ?_⟩
  · rcases redis_other h hs hA hother with ⟨hindex,hexp⟩ | ⟨c,hc,hredis⟩
    · exact ⟨hindex ▸ hshared.stored.listed,hexp ▸ hshared.stored.lasts⟩
    · rw [hredis]
      exact hshared.stored.serve hclock hwit hc
  · rcases read_origin h hread with hread | ⟨hsta,rfl,-⟩
    · exact hshared.read id now startGen snap call' hread hlater
    · have hnow := unix_mono (hs.at hsta).2.1
      refine mem_deleteWhere (hshared.stored.live hclock) (decide_eq_false ?_)
      dsimp only
      omega

lemma shows_other (hA : Alone m slot till s e)
    (hT : InTime m slot till s e) (hother : e.thread ≠ some m) : Shows m slot till s' := by
  have hm := threads_frame h hother
  have hclock := clock_le h
  refine ⟨fits_step h hA hs.fits hs.stamped hs.index,?_,?_,shared_step h hs,?_,?_,?_⟩
  · rw [cleared_same h hs.fits]
    exact hs.stamped.trans (gen_le h)
  · rw [hm]
    intro hbeg
    have hwit := hs.within hbeg
    omega
  · rcases redis_other h hs hA hother with ⟨hindex,-⟩ | ⟨c,hc,hredis⟩
    · rw [hindex]
      exact hs.index
    · rw [hredis]
      exact only_serve_of_spares hs.index hc
  · rw [hm]
    intro row hrow hslot
    exact hs.synced row (synced_other h hs hother hrow hslot) hslot
  · rw [hm]
    intro hlt
    have hbefore : unix s.clock < till := (unix_mono hclock).trans_lt hlt
    have hlocal := local_other h hs hT hother hbefore
    have hshared : s.threads m ≠ .idle → ∀ {call}, Shared slot till s call → Shared slot till s' call :=
      fun hbeg _ => shared_other h hs hA hother hbefore (hs.within hbeg)
    have hsta := hs.stands hbefore
    generalize s.threads m = t at hshared hsta ⊢
    cases t with
    | markWritten => exact hlocal hsta
    | markSent => exact ⟨hlocal hsta.1,hshared nofun hsta.2⟩
    | markReturned _ _ _ call =>
      cases call with
      | none => exact hlocal hsta
      | some => exact ⟨hlocal hsta.1,hshared nofun hsta.2⟩
    | _ => trivial

end

lemma shows_goto {t : Thread} (hfits : ∀ id, Fits m slot till (s.goto m t) id ((s.goto m t).threads id))
    (hsta : s.cooldownClearedGen slot.1 ≤ s.cooldownGen) (hwit : till*second ≤ s.clock+channelCooldownIndexTTL)
    (hshared : Only s.cooldowns.cooldownRemote slot till) (hindex : Only s.redis.index slot till)
    (hsyn : ∀ row ∈ s.cooldownSynced.rows, row.1 = slot → t.acknowledged.map Prod.fst = some row.2)
    (hstan : unix s.clock < till → Stands slot till (s.goto m t) t) : Shows m slot till (s.goto m t) := by
  have hm := threads_goto s m t
  refine ⟨hfits,hsta,fun _ => hwit,hshared,hindex,?_,?_⟩
  · rw [hm]
    exact hsyn
  · rw [hm]
    exact hstan

lemma shows_own (hsco : score till = till) (h : Does score s e s') (hs : Shows m slot till s)
    (hA : Alone m slot till s e) (hT : InTime m slot till s e) (hown : e.thread = some m) :
    Shows m slot till s' := by
  have hfits := fits_step h hA hs.fits hs.stamped hs.index
  have huns : (s.threads m).acknowledged = none → ∀ {t : Thread}, ∀ row ∈ s.cooldownSynced.rows, row.1 = slot →
      t.acknowledged.map Prod.fst = some row.2 := fun h _ row hrow hslot => absurd hslot (hs.unsynced h hrow)
  have hat := hs.fits m
  have hwit := hs.within
  have hsta := hs.stands
  cases h with
  | stays => exact hs
  | ticks | foreign => cases hown
  | refreshes => exact absurd (some.inj hown) hA
  | clears => exact absurd (some.inj hown) hA.1
  | marks h =>
    cases hown
    obtain ⟨rfl,rfl⟩ := hA.1 rfl
    rw [h] at huns
    exact shows_goto hfits hs.stamped (hT.kept rfl) hs.shared hs.index (huns rfl) fun _ => trivial
  | passes h =>
    cases hown
    generalize s.threads _ = t at h huns hat hwit hsta
    cases h with
    | late hlate =>
      obtain ⟨rfl,rfl⟩ := hat.1.1 rfl
      refine shows_goto hfits hs.stamped (hwit nofun) hs.shared hs.index (huns rfl) fun hlt => ?_
      have hbefore := unix_lt_iff.mp hlt
      have hnow := hat.2
      omega
    | notSent => exact shows_goto hfits hs.stamped (hwit nofun) hs.shared hs.index (huns rfl) hsta
    | tooSoon | notRead | notListed | notRemoved => exact absurd rfl hat.1
  | writes h _ =>
    cases hown
    rw [h] at hat hwit
    obtain ⟨rfl,rfl⟩ := hat.1.1 rfl
    exact shows_goto hfits hs.stamped (hwit nofun) hs.shared hs.index
      (fun row hrow hslot => absurd hslot (mem_delete.mp hrow).2) fun _ => mem_put.mpr (.inl rfl)
  | sends h ht =>
    cases hown
    rw [h] at huns hat hwit hsta
    obtain ⟨rfl,rfl⟩ := hat.1.1 rfl
    refine shows_goto hfits hs.stamped (hwit nofun) hs.shared
      (only_serve hs.index fun _ _ heq => by cases heq; exact hsco) (huns rfl) ?_
    rcases ht with rfl | rfl
    · refine fun hlt => ⟨hsta hlt,stored_record hsco hlt (hwit nofun) hat.2,fun id _ _ _ call' ht hlater => ?_⟩
      -- snapshots under way were read by earlier calls
      have hear := hfits id
      rw [ht] at hear
      exact absurd hlater (not_lt.mpr (Nat.lt_succ_iff.mp hear.2.2.1))
    · exact hsta
  | syncs h =>
    cases hown
    rw [h] at huns hat hwit hsta
    obtain ⟨rfl,rfl⟩ := hat.1.1 rfl
    refine shows_goto hfits hs.stamped (hwit nofun) hs.shared hs.index (fun row hrow hslot => ?_) fun hlt =>
      ⟨(hsta hlt).1,(hsta hlt).2.stored,fun id now startGen snap call' ht => ?_⟩
    · dsimp only [markSynced] at hrow
      split_ifs at hrow
      · rcases mem_put.mp hrow with rfl | ⟨hrow,-⟩
        · rfl
        · exact huns rfl row hrow hslot
      · exact huns rfl row hrow hslot
    · have hid := hfits id
      rw [ht] at hid
      rw [threads_goto_of_ne _ _ hid.1] at ht
      exact (hsta hlt).2.read id now startGen snap call' ht
  | starts h | reads h | merges h | stamps h | empties h | lists h | removes h | restamps h =>
    cases hown
    rw [h] at hat
    exact absurd rfl hat.1

lemma shows_step (hsco : score till = till) (hs : Shows m slot till s) (hA : Alone m slot till s e)
    (hT : InTime m slot till s e) : Shows m slot till (step score s e) := by
  by_cases hm : e.thread = some m
  · exact shows_own hsco (does_step score s e) hs hA hT hm
  · exact shows_other (does_step score s e) hs hA hT hm

end Mark

structure Unmarked (slot : Slot) (s : Replica) : Prop where
  shared : ∀ row ∈ s.cooldowns.cooldownRemote.rows, row.1 ≠ slot
  synced : ∀ row ∈ s.cooldownSynced.rows, row.1 ≠ slot
  index : ∀ row ∈ s.redis.index.rows, row.1 ≠ slot

lemma shows_unmarked (hs : Quiet s) (hnew : Unmarked slot s) : Shows m slot untilSec s := by
  have hidle := hs.threads
  refine ⟨fun id => ?_,hs.stamped _,fun hbeg => absurd (hidle m) hbeg,
    fun row hrow hslot => absurd hslot (hnew.shared row hrow),fun row hrow hslot => absurd hslot (hnew.index row hrow),
    fun row hrow hslot => absurd hslot (hnew.synced row hrow),fun _ => ?_⟩
  all_goals
    rw [hidle]
    trivial

/-- A mark shows until its deadline unless a snapshot from before it is merged. -/
theorem marked_stays_visible (score : ℤ → ℤ) (m : ℕ) (slot : Slot) {untilSec : ℤ} (hpositive : 0 ≤ untilSec)
    (hscore : score untilSec = untilSec) {s : Replica} (hs : Quiet s) (hnew : Unmarked slot s) {events : List Event}
    (halone : Along (step score) (Alone m slot untilSec) s events)
    (hintime : Along (step score) (InTime m slot untilSec) s events) :
    Always (step score) (fun s => ∀ now call, s.threads m = .markReturned slot untilSec now call → unix s.clock < untilSec →
      coolingUntil s.cooldowns (unix s.clock) slot.1 slot.2 = untilSec) s events := by
  have hsho := always_of_along (fun _ _ h hG => shows_step hscore h hG.1 hG.2) (shows_unmarked hs hnew)
    (halone.and hintime)
  refine hsho.mono fun s h now call hm hlt => ?_
  have hsta := h.stands hlt
  rw [hm] at hsta
  have hwritten : Written slot untilSec s := by
    cases call with
    | none => exact hsta
    | some => exact hsta.1
  exact coolingUntil_eq hwritten h.shared hpositive hlt

def uncooled : Replica where
  clock := 100*second

lemma quiet_uncooled : Quiet uncooled := ⟨fun _ => rfl,fun _ => Nat.le_refl 0⟩

lemma unmarked_uncooled : Unmarked slot uncooled := ⟨nofun,nofun,nofun⟩

/-- The refresh begins a nanosecond after the mark, reads the index before the mark's call, and merges when the mark has
returned. -/
def overtaken : List Event :=
  [.mark 0 (7,0) 1000,.advance 0 .ok,.tick 1,
    .refresh 1,.advance 1 .ok,.advance 1 .ok,
    .advance 0 .ok,.advance 0 .ok,.advance 1 .ok]

theorem marked_not_visible : Along (step id) (Alone 0 (7,0) 1000) uncooled overtaken ∧
    (run (step id) uncooled overtaken).threads 0 = .markReturned (7,0) 1000 (100*second) (some 1) ∧
    unix (run (step id) uncooled overtaken).clock = 100 ∧
    coolingUntil (run (step id) uncooled overtaken).cooldowns 100 7 0 = 0 := by decide +kernel

/-- The same, but for the mark's call that comes before the refresh reads. -/
def inTime : List Event :=
  [.mark 0 (7,0) 1000,.advance 0 .ok,.tick 1,
    .refresh 1,.advance 1 .ok,
    .advance 0 .ok,.advance 1 .ok,.advance 0 .ok,.advance 1 .ok]

theorem marked_stays_visible_inTime :
    Always (step id) (fun s => ∀ now call, s.threads 0 = .markReturned (7,0) 1000 now call → unix s.clock < 1000 →
      coolingUntil s.cooldowns (unix s.clock) 7 0 = 1000) uncooled inTime ∧
    (run (step id) uncooled inTime).threads 0 = .markReturned (7,0) 1000 (100*second) (some 0) :=
  ⟨marked_stays_visible id 0 (7,0) (by decide) rfl quiet_uncooled unmarked_uncooled (by decide +kernel) (by decide +kernel),
    by decide +kernel⟩

end LurusHub.ChannelCooldown
