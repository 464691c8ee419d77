import LurusHub.ChannelSelect
import LurusHub.Transition

/-! Cooldowns of channels, on one replica. A mark writes the local map and then the index in Redis;
a refresh copies the index and drops what it has lost; a clear empties maps and index, between two
stamps that tell refreshes which snapshots are stale. Threads go from one lock section or Redis call
to the next and interleave; other replicas show in the index only. -/
namespace LurusHub.ChannelCooldown
open ChannelSelect

/-- `cooldownSlot`: a channel and the index of a key. -/
abbrev Slot := ℤ × ℤ

/-- Times are in nanoseconds, deadlines in seconds. -/
def second : ℤ := 1000000000

def unix (now : ℤ) : ℤ := now/second

def channelCooldownIndexTTL : ℤ := 25*3600*second
def cooldownSnapshotEvery : ℤ := 2*second

/-! Redis. -/

structure Redis where
  index : Deadlines := .empty
  expiresAt : Option ℤ := none
  served : ℕ := 0

inductive Command
  | record (slot : Slot) (untilSec now : ℤ)
  | remove (members : List Slot)
  deriving DecidableEq

def Redis.live (db : Redis) (clock : ℤ) : Deadlines := if db.expiresAt.any fun t => t ≤ clock then .empty else db.index

/-- `score` is what is left of a deadline as a float. -/
def Redis.serve (score : ℤ → ℤ) (db : Redis) (clock : ℤ) : Command → Redis
  | .record slot untilSec now => {
      index := ((db.live clock).put (slot,score untilSec)).deleteWhere fun row => row.2 ≤ unix now
      expiresAt := some (clock+channelCooldownIndexTTL)
      served := db.served+1 }
  | .remove members => { db with index := (db.live clock).deleteWhere fun row => row.1 ∈ members, served := db.served+1 }

/-! The replica. -/

inductive Thread
  | idle
  | markBegun (slot : Slot) (untilSec now : ℤ)
  | markWritten (slot : Slot) (untilSec now : ℤ)
  | markSent (slot : Slot) (untilSec now : ℤ) (call : ℕ)
  | markReturned (slot : Slot) (untilSec now : ℤ) (call : Option ℕ)
  | refreshBegun (now : ℤ)
  | refreshStarted (now : ℤ) (startGen : ℕ)
  | refreshRead (now : ℤ) (startGen : ℕ) (snap : Deadlines) (call : ℕ)
  | refreshReturned
  | clearBegun (channelID : ℤ)
  | clearStamped (channelID : ℤ)
  | clearEmptied (channelID : ℤ)
  | clearListed (channelID : ℤ) (members : List Slot)
  | clearRemoved (channelID : ℤ)
  | clearReturned
  deriving DecidableEq

structure Replica where
  clock : ℤ
  cooldowns : Cooldowns := {}
  cooldownSynced : KeyedTable (Slot × ℤ) Slot Prod.fst := .empty
  cooldownRemoteAt : Option ℤ := none
  cooldownGen : ℕ := 0
  cooldownClearedGen : ℤ → ℕ := fun _ => 0
  redis : Redis := {}
  threads : ℕ → Thread := fun _ => .idle

def Replica.goto (s : Replica) (id : ℕ) (t : Thread) : Replica := { s with threads := Function.update s.threads id t }

inductive Outcome
  | ok | lost | unacknowledged
  deriving DecidableEq

/-! The steps of `MarkChannelCooldown`. -/

def writeLocal (s : Replica) (slot : Slot) (untilSec now : ℤ) : Replica := { s with
  cooldowns := { s.cooldowns with
    cooldownLocal := (s.cooldowns.cooldownLocal.deleteWhere fun row => row.2 ≤ unix now).put (slot,untilSec) }
  cooldownSynced := s.cooldownSynced.delete slot }

def send (score : ℤ → ℤ) (s : Replica) (c : Command) : Replica := { s with redis := s.redis.serve score s.clock c }

def markSynced (s : Replica) (slot : Slot) (untilSec now : ℤ) : Replica := { s with
  cooldownSynced :=
    if deadline s.cooldowns.cooldownLocal slot = untilSec then s.cooldownSynced.put (slot,now) else s.cooldownSynced }

/-! The steps of `refreshCooldownSnapshot`. -/

def tooSoon (s : Replica) (now : ℤ) : Bool := s.cooldownRemoteAt.any fun t => now-t < cooldownSnapshotEvery

def readIndex (s : Replica) (now : ℤ) : Deadlines := (s.redis.live s.clock).deleteWhere fun row => row.2 < unix now+1

def countCall (s : Replica) : Replica := { s with redis := { s.redis with served := s.redis.served+1 } }

/-- Slots of channels that were cleared since the refresh started are discarded. -/
def unstale (s : Replica) (startGen : ℕ) (snap : Deadlines) : Deadlines :=
  snap.deleteWhere fun row => startGen < s.cooldownClearedGen row.1.1

/-- The local copy was written before the refresh began, and the index does not have it, or not so late. -/
def outdated (s : Replica) (now : ℤ) (snap : Deadlines) (slot : Slot) : Bool :=
  (s.cooldownSynced.get? slot).any fun row => row.2 < now && deadline snap slot < deadline s.cooldowns.cooldownLocal slot

def mergeSnapshot (s : Replica) (now : ℤ) (startGen : ℕ) (snap : Deadlines) : Replica :=
  let snap := unstale s startGen snap
  { s with
    cooldowns := {
      cooldownLocal := s.cooldowns.cooldownLocal.deleteWhere fun row => outdated s now snap row.1
      cooldownRemote := snap }
    cooldownSynced := s.cooldownSynced.deleteWhere fun row => outdated s now snap row.1 }

/-! The steps of `ClearChannelCooldown`. -/

def markCooldownCleared (s : Replica) (channelID : ℤ) : Replica := { s with
  cooldownGen := s.cooldownGen+1
  cooldownClearedGen := Function.update s.cooldownClearedGen channelID (s.cooldownGen+1) }

/-- Only slots with a local entry lose their mark of having been synced. -/
def clearMaps (s : Replica) (channelID : ℤ) : Replica := { s with
  cooldowns := {
    cooldownLocal := s.cooldowns.cooldownLocal.deleteWhere fun row => row.1.1 = channelID
    cooldownRemote := s.cooldowns.cooldownRemote.deleteWhere fun row => row.1.1 = channelID }
  cooldownSynced := s.cooldownSynced.deleteWhere fun row =>
    row.1.1 = channelID && (s.cooldowns.cooldownLocal.get? row.1).isSome }

def membersOf (s : Replica) (channelID : ℤ) : List Slot :=
  ((s.redis.live s.clock).rows.map Prod.fst).filter fun slot => slot.1 = channelID

/-! Threads. -/

def advance (score : ℤ → ℤ) (s : Replica) (id : ℕ) (o : Outcome) : Replica :=
  match s.threads id with
  | .idle => s
  | .markBegun slot untilSec now =>
    if untilSec*second-now ≤ 0 then s.goto id (.markReturned slot untilSec now none)
    else (writeLocal s slot untilSec now).goto id (.markWritten slot untilSec now)
  | .markWritten slot untilSec now =>
    match o with
    | .ok => (send score s (.record slot untilSec now)).goto id (.markSent slot untilSec now s.redis.served)
    | .lost => s.goto id (.markReturned slot untilSec now none)
    | .unacknowledged => (send score s (.record slot untilSec now)).goto id (.markReturned slot untilSec now none)
  | .markSent slot untilSec now call => (markSynced s slot untilSec now).goto id (.markReturned slot untilSec now (some call))
  | .markReturned .. => s
  | .refreshBegun now =>
    if tooSoon s now then s.goto id .refreshReturned
    else { s with cooldownRemoteAt := some now }.goto id (.refreshStarted now s.cooldownGen)
  | .refreshStarted now startGen =>
    match o with
    | .ok => (countCall s).goto id (.refreshRead now startGen (readIndex s now) s.redis.served)
    | _ => s.goto id .refreshReturned
  | .refreshRead now startGen snap _ => (mergeSnapshot s now startGen snap).goto id .refreshReturned
  | .refreshReturned => s
  | .clearBegun channelID => (markCooldownCleared s channelID).goto id (.clearStamped channelID)
  | .clearStamped channelID => (clearMaps s channelID).goto id (.clearEmptied channelID)
  | .clearEmptied channelID =>
    match o with
    | .ok =>
      if membersOf s channelID = [] then (countCall s).goto id (.clearRemoved channelID)
      else (countCall s).goto id (.clearListed channelID (membersOf s channelID))
    | _ => s.goto id (.clearRemoved channelID)
  | .clearListed channelID members =>
    match o with
    | .lost => s.goto id (.clearRemoved channelID)
    | _ => (send score s (.remove members)).goto id (.clearRemoved channelID)
  | .clearRemoved channelID => (markCooldownCleared s channelID).goto id .clearReturned
  | .clearReturned => s

inductive Event
  | tick (nanoseconds : ℕ)
  | mark (id : ℕ) (slot : Slot) (untilSec : ℤ)
  | refresh (id : ℕ)
  | clear (id : ℕ) (channelID : ℤ)
  | advance (id : ℕ) (o : Outcome)
  | foreign (c : Command)
  deriving DecidableEq

/-- A call begins with a look at the clock; a thread is used once. -/
def step (score : ℤ → ℤ) (s : Replica) : Event → Replica
  | .tick nanoseconds => { s with clock := s.clock+nanoseconds }
  | .mark id slot untilSec =>
    match s.threads id with
    | .idle => s.goto id (.markBegun slot untilSec s.clock)
    | _ => s
  | .refresh id =>
    match s.threads id with
    | .idle => s.goto id (.refreshBegun s.clock)
    | _ => s
  | .clear id channelID =>
    match s.threads id with
    | .idle => s.goto id (.clearBegun channelID)
    | _ => s
  | .advance id o => advance score s id o
  | .foreign c => send score s c

/-! What a step can do. -/

inductive Passes : Thread → Outcome → Thread → Prop
  | late {slot untilSec now o} (h : untilSec*second-now ≤ 0) :
      Passes (.markBegun slot untilSec now) o (.markReturned slot untilSec now none)
  | notSent {slot untilSec now} : Passes (.markWritten slot untilSec now) .lost (.markReturned slot untilSec now none)
  | tooSoon {now o} : Passes (.refreshBegun now) o .refreshReturned
  | notRead {now startGen o} (h : o ≠ .ok) : Passes (.refreshStarted now startGen) o .refreshReturned
  | notListed {channelID o} (h : o ≠ .ok) : Passes (.clearEmptied channelID) o (.clearRemoved channelID)
  | notRemoved {channelID members} : Passes (.clearListed channelID members) .lost (.clearRemoved channelID)

inductive Does (score : ℤ → ℤ) (s : Replica) : Event → Replica → Prop
  | stays (e : Event) : Does score s e s
  | ticks (nanoseconds : ℕ) : Does score s (.tick nanoseconds) { s with clock := s.clock+nanoseconds }
  | marks {id slot untilSec} (h : s.threads id = .idle) :
      Does score s (.mark id slot untilSec) (s.goto id (.markBegun slot untilSec s.clock))
  | refreshes {id} (h : s.threads id = .idle) : Does score s (.refresh id) (s.goto id (.refreshBegun s.clock))
  | clears {id channelID} (h : s.threads id = .idle) : Does score s (.clear id channelID) (s.goto id (.clearBegun channelID))
  | foreign (c : Command) : Does score s (.foreign c) (send score s c)
  | passes {id o t} (h : Passes (s.threads id) o t) : Does score s (.advance id o) (s.goto id t)
  | writes {id o slot untilSec now} (h : s.threads id = .markBegun slot untilSec now) (hlive : 0 < untilSec*second-now) :
      Does score s (.advance id o) ((writeLocal s slot untilSec now).goto id (.markWritten slot untilSec now))
  | sends {id o slot untilSec now t} (h : s.threads id = .markWritten slot untilSec now)
      (ht : t = .markSent slot untilSec now s.redis.served ∨ t = .markReturned slot untilSec now none) :
      Does score s (.advance id o) ((send score s (.record slot untilSec now)).goto id t)
  | syncs {id o slot untilSec now call} (h : s.threads id = .markSent slot untilSec now call) :
      Does score s (.advance id o) ((markSynced s slot untilSec now).goto id (.markReturned slot untilSec now (some call)))
  | starts {id o now} (h : s.threads id = .refreshBegun now) :
      Does score s (.advance id o) ({ s with cooldownRemoteAt := some now }.goto id (.refreshStarted now s.cooldownGen))
  | reads {id o now startGen} (h : s.threads id = .refreshStarted now startGen) :
      Does score s (.advance id o) ((countCall s).goto id (.refreshRead now startGen (readIndex s now) s.redis.served))
  | merges {id o now startGen snap call} (h : s.threads id = .refreshRead now startGen snap call) :
      Does score s (.advance id o) ((mergeSnapshot s now startGen snap).goto id .refreshReturned)
  | stamps {id o channelID} (h : s.threads id = .clearBegun channelID) :
      Does score s (.advance id o) ((markCooldownCleared s channelID).goto id (.clearStamped channelID))
  | empties {id o channelID} (h : s.threads id = .clearStamped channelID) :
      Does score s (.advance id o) ((clearMaps s channelID).goto id (.clearEmptied channelID))
  | lists {id o channelID t} (h : s.threads id = .clearEmptied channelID)
      (ht : t = .clearRemoved channelID ∧ membersOf s channelID = [] ∨ t = .clearListed channelID (membersOf s channelID)) :
      Does score s (.advance id o) ((countCall s).goto id t)
  | removes {id o channelID members} (h : s.threads id = .clearListed channelID members) :
      Does score s (.advance id o) ((send score s (.remove members)).goto id (.clearRemoved channelID))
  | restamps {id o channelID} (h : s.threads id = .clearRemoved channelID) :
      Does score s (.advance id o) ((markCooldownCleared s channelID).goto id .clearReturned)

lemma does_advance (score : ℤ → ℤ) (s : Replica) (id : ℕ) (o : Outcome) :
    Does score s (.advance id o) (advance score s id o) := by
  unfold advance
  cases h : s.threads id with
  | idle => exact .stays _
  | markBegun slot till now =>
    dsimp only
    split_ifs with hlate
    · exact .passes (h ▸ .late hlate)
    · exact .writes h (by omega)
  | markWritten slot till now =>
    cases o with
    | ok => exact .sends h (.inl rfl)
    | lost => exact .passes (h ▸ .notSent)
    | unacknowledged => exact .sends h (.inr rfl)
  | markSent slot till now call => exact .syncs h
  | markReturned => exact .stays _
  | refreshBegun now =>
    dsimp only
    split_ifs
    · exact .passes (h ▸ .tooSoon)
    · exact .starts h
  | refreshStarted now startGen =>
    cases o with
    | ok => exact .reads h
    | lost | unacknowledged => exact .passes (h ▸ .notRead (by decide))
  | refreshRead now startGen snap call => exact .merges h
  | refreshReturned => exact .stays _
  | clearBegun channelID => exact .stamps h
  | clearStamped channelID => exact .empties h
  | clearEmptied channelID =>
    cases o with
    | ok =>
      dsimp only
      split_ifs with hnone
      · exact .lists h (.inl ⟨rfl,hnone⟩)
      · exact .lists h (.inr rfl)
    | lost | unacknowledged => exact .passes (h ▸ .notListed (by decide))
  | clearListed channelID members =>
    cases o with
    | ok => exact .removes h
    | lost => exact .passes (h ▸ .notRemoved)
    | unacknowledged => exact .removes h
  | clearRemoved channelID => exact .restamps h
  | clearReturned => exact .stays _

lemma does_step (score : ℤ → ℤ) (s : Replica) (e : Event) : Does score s e (step score s e) := by
  cases e with
  | tick nanoseconds => exact .ticks nanoseconds
  | mark id slot untilSec =>
    simp only [step]
    split
    · next h => exact .marks h
    · exact .stays _
  | refresh id =>
    simp only [step]
    split
    · next h => exact .refreshes h
    · exact .stays _
  | clear id channelID =>
    simp only [step]
    split
    · next h => exact .clears h
    · exact .stays _
  | advance id o => exact does_advance score s id o
  | foreign c => exact .foreign c

/-! Frames. -/

def Event.thread : Event → Option ℕ
  | .tick _ => none
  | .mark id _ _ => some id
  | .refresh id => some id
  | .clear id _ => some id
  | .advance id _ => some id
  | .foreign _ => none

lemma threads_goto (s : Replica) (id : ℕ) (t : Thread) : (s.goto id t).threads id = t := Function.update_self ..

lemma threads_goto_of_ne (s : Replica) {id id' : ℕ} (t : Thread) (h : id' ≠ id) :
    (s.goto id t).threads id' = s.threads id' := Function.update_of_ne h ..

lemma forall_goto {s : Replica} {P : ℕ → Thread → Prop} {id : ℕ} (h : ∀ id', P id' (s.threads id')) (ht : P id t) :
    ∀ id', P id' ((s.goto id t).threads id') := by
  intro id'
  by_cases hid : id' = id
  · subst hid
    rw [threads_goto]
    exact ht
  · rw [threads_goto_of_ne _ _ hid]
    exact h id'

lemma threads_frame (h : Does score s e s') {id : ℕ} (hid : e.thread ≠ some id) : s'.threads id = s.threads id := by
  have hne : ∀ {id' : ℕ}, some id' ≠ some id → id ≠ id' := fun h heq => h (congrArg some heq.symm)
  cases h with
  | stays | ticks | foreign => rfl
  | _ => exact threads_goto_of_ne _ _ (hne hid)

lemma clock_le (h : Does score s e s') : s.clock ≤ s'.clock := by
  cases h with
  | ticks n => exact Int.le_add_of_nonneg_right (Int.natCast_nonneg n)
  | _ => exact le_refl _

lemma gen_le (h : Does score s e s') : s.cooldownGen ≤ s'.cooldownGen := by
  cases h with
  | stamps _ | restamps _ => exact Nat.le_succ _
  | _ => exact le_refl _

lemma live_later {db : Redis} (h : clock ≤ clock') (hrow : row ∈ (db.live clock').rows) :
    row ∈ (db.live clock).rows := by
  unfold Redis.live at hrow ⊢
  split_ifs at hrow with hexpired
  · cases hrow
  · rw [if_neg]
    · exact hrow
    · intro hbefore
      obtain ⟨t,ht,hle⟩ := Option.any_eq_true _ _ |>.mp hbefore
      exact hexpired (Option.any_eq_true _ _ |>.mpr ⟨t,ht,decide_eq_true ((of_decide_eq_true hle).trans h)⟩)

lemma live_sub {db : Redis} (hrow : row ∈ (db.live clock).rows) : row ∈ db.index.rows := by
  unfold Redis.live at hrow
  split_ifs at hrow
  · cases hrow
  · exact hrow

end LurusHub.ChannelCooldown
