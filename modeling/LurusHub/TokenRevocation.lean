import LurusHub.DelayedWrites
import LurusHub.KeyedTable
import LurusHub.Transition
import Mathlib.Algebra.Order.Ring.Int

/-! Rotating and deleting API keys while requests authenticate with them. A lookup that misses the
cache reads the row and leaves the cache write to a goroutine; a rotation or deletion changes the
row and leaves the old key's delete to another. Every statement and command is one step. -/
namespace LurusHub.TokenRevocation

open Transition DelayedWrites List

def tokenStatusEnabled : ℤ := 1
def tokenStatusExpired : ℤ := 3
def tokenStatusExhausted : ℤ := 4

structure Token where
  id : ℤ
  key : String
  (status expiredTime remainQuota : ℤ)
  unlimitedQuota : Bool
  deriving DecidableEq

def Token.clean (token : Token) : Token := { token with key := "" }

def Token.quotaAvailable (token : Token) : Bool := token.unlimitedQuota || decide (0 < token.remainQuota)

inductive TokenError where
  | noTokenProvided
  | tokenQuotaExhausted (detail : String)
  | tokenExpired
  | tokenDisabled
  | invalidToken
  | tokenLookupFailed (cause : String)
  deriving DecidableEq

def tokenExhaustedMessage (remainQuota : ℤ) : TokenError :=
  .tokenQuotaExhausted ("available quota exhausted [remaining "++remainQuota.repr++
    "]; edit the token's remaining quota or set it to unlimited")

def checkToken (now : ℤ) (token : Token) : Option TokenError :=
  if token.status = tokenStatusExhausted then
    if token.quotaAvailable then
      some (.tokenQuotaExhausted ("remaining quota is sufficient ["++
        (if token.unlimitedQuota then "unlimited" else token.remainQuota.repr)++
        "], but the token is currently disabled; re-enable it from the token management page"))
    else some (tokenExhaustedMessage token.remainQuota)
  else if token.status = tokenStatusExpired then some .tokenExpired
  else if token.status ≠ tokenStatusEnabled then some .tokenDisabled
  else if token.expiredTime ≠ -1 ∧ token.expiredTime < now then some .tokenExpired
  else if !token.unlimitedQuota ∧ token.remainQuota ≤ 0 then some (tokenExhaustedMessage token.remainQuota)
  else none

inductive LookupError where
  | recordNotFound
  | database (cause : String)
  deriving DecidableEq

inductive Phase where
  | readsCache
  | readsDatabase
  | returned (answer : Except LookupError Token)

structure Call where
  key : String
  early : Bool
  phase : Phase

inductive Progress where
  | pending
  | updated
  | returned
  | failed
  deriving DecidableEq

structure State where
  tokens : KeyedTable Token ℤ Token.id
  cache : Store Bool String Token
  calls : List Call
  progress : Progress

inductive Kind where
  | rotateKey (newKey : String)
  | delete
  deriving DecidableEq

structure Revocation where
  token : Token
  kind : Kind
  fresh : ∀ newKey, kind = .rotateKey newKey → newKey ≠ token.key

variable (hmac : String → String)

def cacheKey (key : String) : String := "token:"++hmac key

def cacheSetToken (token : Token) : Cmd String Token := .set (cacheKey hmac token.key) token.clean

def cacheDeleteToken (key : String) : Cmd String Token := .del (cacheKey hmac key)

def cacheGetTokenByKey (s : State) (key : String) : Option Token :=
  (s.cache.entry (cacheKey hmac key)).map fun token => { token with key := key }

def firstByKey (tokens : KeyedTable Token ℤ Token.id) (key : String) : Except LookupError Token :=
  match tokens.rows.find? fun token => token.key = key with
  | some token => .ok token
  | none => .error .recordNotFound

/-- `GetTokenByKey` with nothing in between, of a database that answers. -/
def getTokenByKey (s : State) (key : String) (fromDB : Bool) : Except LookupError Token :=
  match if fromDB then none else cacheGetTokenByKey hmac s key with
  | some token => .ok token
  | none => firstByKey s.tokens key

def validateUserToken (now : ℤ) (s : State) (key : String) : Option Token × Option TokenError :=
  if key = "" then (none,some .noTokenProvided)
  else match getTokenByKey hmac s key false with
    | .ok token => (some token,checkToken now token)
    | .error .recordNotFound => (none,some .invalidToken)
    | .error (.database cause) => (none,some (.tokenLookupFailed cause))

namespace Revocation

def statement (r : Revocation) (tokens : KeyedTable Token ℤ Token.id) : KeyedTable Token ℤ Token.id :=
  match r.kind with
  | .rotateKey newKey => tokens.modify r.token.id fun token => { token with key := newKey }
  | .delete => tokens.delete r.token.id

def invalidation (r : Revocation) : List (Cmd String Token) :=
  match r.kind with
  | .rotateKey newKey => [cacheDeleteToken hmac r.token.key,cacheSetToken hmac { r.token with key := newKey }]
  | .delete => [cacheDeleteToken hmac r.token.key]

end Revocation

inductive Event where
  | begins (key : String) (fromDB : Bool)
  | readCache (i : ℕ) (fault : Bool)
  | readDatabase (i : ℕ) (fault : Option String)
  | writeRow (fault : Bool)
  | returns
  | runJob (i : ℕ)
  | expires (key : String)

def step (r : Revocation) (s : State) : Event → State
  | .begins key fromDB =>
    { s with calls := s.calls++[⟨key,s.progress ≠ .returned,if fromDB then .readsDatabase else .readsCache⟩] }
  | .readCache i fault =>
    match s.calls[i]? with
    | some ⟨key,early,.readsCache⟩ =>
      -- an error of Redis is taken for a miss
      match if fault then none else cacheGetTokenByKey hmac s key with
      | some token => { s with calls := s.calls.set i ⟨key,early,.returned (.ok token)⟩ }
      | none => { s with calls := s.calls.set i ⟨key,early,.readsDatabase⟩ }
    | _ => s
  | .readDatabase i fault =>
    match s.calls[i]? with
    | some ⟨key,early,.readsDatabase⟩ =>
      match fault with
      | some cause => { s with calls := s.calls.set i ⟨key,early,.returned (.error (.database cause))⟩ }
      | none =>
        match firstByKey s.tokens key with
        | .ok token => { s with
            calls := s.calls.set i ⟨key,early,.returned (.ok token)⟩
            cache := s.cache.spawn ⟨early,[cacheSetToken hmac token]⟩ }
        | .error e => { s with calls := s.calls.set i ⟨key,early,.returned (.error e)⟩ }
    | _ => s
  | .writeRow fault =>
    if s.progress = .pending then
      if fault then { s with progress := .failed } else { s with tokens := r.statement s.tokens, progress := .updated }
    else s
  | .returns =>
    if s.progress = .updated then
      { s with cache := s.cache.spawn ⟨true,r.invalidation hmac⟩, progress := .returned }
    else s
  | .runJob i => { s with cache := s.cache.exec i }
  | .expires key => { s with cache := s.cache.expire key }

def start (tokens : KeyedTable Token ℤ Token.id) (entry : String → Option Token) : State :=
  ⟨tokens,⟨entry,[]⟩,[],.pending⟩

def lookup (i : ℕ) (key : String) (fromDB : Bool) : List Event :=
  [.begins key fromDB,.readCache i false,.readDatabase i none]

@[simp] lemma checkToken_key : checkToken now { token with key := key } = checkToken now token := rfl

lemma firstByKey_of_absent
    (h : ∀ token ∈ tokens.rows, token.key ≠ key) : firstByKey tokens key = .error .recordNotFound := by
  have hnone : (tokens.rows.find? fun token => token.key = key) = none := by simpa using h
  rw [firstByKey,hnone]

lemma Revocation.statement_absent (r : Revocation)
    (h : ∀ token ∈ tokens.rows, token.key = r.token.key → token.id = r.token.id) :
    ∀ token ∈ (r.statement tokens).rows, token.key ≠ r.token.key := by
  intro token hmem hkey
  cases hk : r.kind with
  | delete =>
    rw [Revocation.statement,hk] at hmem
    have hold := KeyedTable.mem_delete.mp hmem
    exact hold.2 (h token hold.1 hkey)
  | rotateKey newKey =>
    simp only [Revocation.statement,hk,KeyedTable.modify,KeyedTable.updateWhere,mem_map,decide_eq_true_eq] at hmem
    obtain ⟨old,hold,rfl⟩ := hmem
    by_cases hid : old.id = r.token.id
    · simp only [hid] at hkey
      exact r.fresh newKey hk hkey
    · simp only [hid] at hkey
      exact hid (h old hold hkey)

lemma Revocation.delete_mem_invalidation (r : Revocation) :
    cacheDeleteToken hmac r.token.key ∈ r.invalidation hmac := by
  cases hk : r.kind <;> simp [invalidation,hk]

variable (now : ℤ) (r : Revocation)

/-- The key is refused once the rotation or deletion has returned and its cache writes and those of
earlier calls have run. -/
def KeyDead (s : State) : Prop :=
  s.progress = .returned → s.cache.Finished true → (validateUserToken hmac now s r.token.key).2.isSome = true
  deriving Decidable

/-- After the return, the old key's entry is written only while its delete is still to run, or with a
token that is refused anyway. -/
def FillsInTime (s : State) : Event → Prop
  | .runJob i => s.progress = .returned →
    ∀ token ∈ (s.cache.next? i).bind (Cmd.written (cacheKey hmac r.token.key)),
      s.cache.Awaits (cacheDeleteToken hmac r.token.key) ∨ (checkToken now token).isSome = true
  | _ => True

instance (s : State) (e : Event) : Decidable (FillsInTime hmac now r s e) := by
  cases e <;> unfold FillsInTime <;> infer_instance

structure Sound (s : State) : Prop where
  owner : s.progress = .pending → ∀ token ∈ s.tokens.rows, token.key = r.token.key → token.id = r.token.id
  absent : s.progress = .updated ∨ s.progress = .returned → ∀ token ∈ s.tokens.rows, token.key ≠ r.token.key
  clean : s.progress = .returned →
    s.cache.Clean (cacheKey hmac r.token.key) fun token => (checkToken now token).isSome = true
  deletes : ∀ j ∈ s.cache.jobs, cacheDeleteToken hmac r.token.key ∈ j.cmds → j.tag = true

variable {hmac now r}

section
variable (h : Sound hmac now r s)
include h

lemma Sound.keyDead : KeyDead hmac now r s := by
  intro hret hfin
  by_cases hkey : r.token.key = ""
  · simp [validateUserToken,hkey]
  · rcases h.clean hret with hwait | hentry
    · obtain ⟨j,hj,hdel⟩ := hwait
      rw [hfin j hj (h.deletes j hj hdel)] at hdel
      exact absurd hdel not_mem_nil
    · cases hc : s.cache.entry (cacheKey hmac r.token.key) with
      | some token =>
        have hche := hentry token (by simp [hc])
        simpa [validateUserToken,hkey,getTokenByKey,cacheGetTokenByKey,hc] using hche
      | none =>
        have habs := firstByKey_of_absent (h.absent (.inr hret))
        simp [validateUserToken,hkey,getTokenByKey,cacheGetTokenByKey,hc,habs]

lemma Sound.call (calls : List Call) : Sound hmac now r { s with calls := calls } :=
  ⟨h.owner,h.absent,h.clean,h.deletes⟩

lemma Sound.fill (early : Bool) (token : Token) :
    Sound hmac now r { s with cache := s.cache.spawn ⟨early,[cacheSetToken hmac token]⟩ } where
  owner := h.owner
  absent := h.absent
  clean hret := (h.clean hret).spawn _
  deletes j hj hdel := by
    rcases mem_append.mp hj with hj | hj
    · exact h.deletes j hj hdel
    · obtain rfl := mem_singleton.mp hj
      simp [cacheDeleteToken,cacheSetToken] at hdel

lemma Sound.writeRow (hp : s.progress = .pending) :
    Sound hmac now r { s with tokens := r.statement s.tokens, progress := .updated } where
  owner hu := by cases hu
  absent _ := r.statement_absent (h.owner hp)
  clean hu := by cases hu
  deletes := h.deletes

lemma Sound.failed : Sound hmac now r { s with progress := .failed } where
  owner hf := by cases hf
  absent hf := by simp at hf
  clean hf := by cases hf
  deletes := h.deletes

lemma Sound.returns (hu : s.progress = .updated) :
    Sound hmac now r { s with cache := s.cache.spawn ⟨true,r.invalidation hmac⟩, progress := .returned } where
  owner hp := by cases hp
  absent _ := h.absent (.inl hu)
  clean _ := .inl ⟨_,mem_append_right _ mem_cons_self,r.delete_mem_invalidation hmac⟩
  deletes j hj hdel := by
    rcases mem_append.mp hj with hj | hj
    · exact h.deletes j hj hdel
    · rw [mem_singleton.mp hj]

lemma step_sound (hG : FillsInTime hmac now r s e) : Sound hmac now r (step hmac r s e) := by
  cases e with
  | begins key fromDB => exact h.call _
  | readCache i fault =>
    simp only [step]
    split
    · split <;> exact h.call _
    · exact h
  | readDatabase i fault =>
    simp only [step]
    split
    · split
      · exact h.call _
      · split
        · exact (h.fill _ _).call _
        · exact h.call _
    · exact h
  | writeRow fault =>
    simp only [step]
    split
    · rename_i hp
      split
      · exact h.failed
      · exact h.writeRow hp
    · exact h
  | returns =>
    simp only [step]
    split
    · exact h.returns ‹_›
    · exact h
  | runJob i =>
    refine ⟨h.owner,h.absent,fun hret => (h.clean hret).exec (hG hret),fun j hj hdel => ?_⟩
    obtain ⟨q,hq,htag,hsub⟩ := Store.mem_jobs_exec hj
    exact htag ▸ h.deletes q hq (hsub hdel)
  | expires key => exact ⟨h.owner,h.absent,fun hret => (h.clean hret).expire,h.deletes⟩

end

lemma start_sound (huni : ∀ token ∈ tokens.rows, token.key = r.token.key → token.id = r.token.id) :
    Sound hmac now r (start tokens entry) where
  owner _ := huni
  absent h := by simp [start] at h
  clean h := by cases h
  deletes j hj := by simp [start] at hj

theorem revoked_key_refused (hmac : String → String) (now : ℤ) (r : Revocation)
    (tokens : KeyedTable Token ℤ Token.id) (entry : String → Option Token)
    (hunique : ∀ token ∈ tokens.rows, token.key = r.token.key → token.id = r.token.id) (es : List Event)
    (hG : Along (step hmac r) (FillsInTime hmac now r) (start tokens entry) es) :
    Always (step hmac r) (KeyDead hmac now r) (start tokens entry) es := by
  have hsound := always_of_along (I := Sound hmac now r) (fun s e h hg => step_sound h hg)
    (start_sound hunique) hG
  exact hsound.mono fun s h => h.keyDead

def served : Token := ⟨7,"old",tokenStatusEnabled,-1,0,true⟩

def rotation : Revocation := ⟨served,.rotateKey "new",by simp [served]⟩

def deletion : Revocation := ⟨served,.delete,nofun⟩

def servedOnly : KeyedTable Token ℤ Token.id := ⟨[served],by simp⟩

theorem revoked_key_refused_served :
    let es : List Event := lookup 0 "old" false++[.runJob 0,.begins "old" true,.readDatabase 1 none,.writeRow false,.returns,
      .runJob 1,.runJob 2,.runJob 2]
    let s := run (step id rotation) (start servedOnly fun _ => none) es
    (s.progress = .returned ∧ s.cache.Finished true) ∧
      Always (step id rotation) (KeyDead id 1000 rotation) (start servedOnly fun _ => none) es :=
  ⟨by decide +kernel,revoked_key_refused id 1000 rotation servedOnly (fun _ => none)
    (by decide +kernel) _ (by decide +kernel)⟩

theorem revoked_key_accepted :
    let rotated := run (step id rotation) (start servedOnly fun _ => none)
      (lookup 0 "old" false++[.writeRow false,.returns,.runJob 1,.runJob 1,.runJob 0])
    let deleted := run (step id deletion) (start servedOnly fun _ => none)
      (lookup 0 "old" false++[.writeRow false,.returns,.runJob 1,.runJob 0])
    ((rotated.progress = .returned ∧ rotated.cache.Finished true) ∧
      validateUserToken id 1000 rotated "old" = (some served,none) ∧ ¬KeyDead id 1000 rotation rotated) ∧
    (deleted.progress = .returned ∧ deleted.cache.Finished true) ∧
      validateUserToken id 1000 deleted "old" = (some served,none) ∧ ¬KeyDead id 1000 deletion deleted := by
  decide +kernel

end LurusHub.TokenRevocation
