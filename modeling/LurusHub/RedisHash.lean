import LurusHub.KeyedTable
import LurusHub.Transition
import Mathlib.Algebra.Order.Ring.Int

/-! Structs cached as Redis hashes. `RedisHSetObj` writes every field in one transaction,
`RedisHGetObj` reads the whole hash. `RedisHIncrBy` and `RedisHSetField` read the key's TTL first,
to leave a missing key alone, and write in a second round trip. The model follows one key. -/
namespace LurusHub.RedisHash

open Transition KeyedTable List

inductive Kind where
  | string
  | int
  | bool
  | struct
  | unsupported (kind : String)
  deriving DecidableEq

inductive FieldType where
  | plain (kind : Kind)
  | pointer (kind : Kind)
  | deletedAt
  deriving DecidableEq

structure Field where
  name : String
  type : FieldType
  deriving DecidableEq

structure Schema where
  fields : List Field
  unique : (fields.map Field.name).Nodup

inductive Value where
  | string (s : String)
  | int (n : ℤ)
  | bool (b : Bool)
  | nil
  | deletedAt (time : Option String)
  | other (text : String)
  deriving DecidableEq

abbrev Object := String → Value

structure Codec where
  /-- The integers `HINCRBY` takes a stored text for. -/
  redisInt : String → Option ℤ
  parseInt : String → Except String ℤ
  parseBool : String → Except String Bool
  parseTime : String → Except String String

def formatBool (b : Bool) : String := if b then "true" else "false"

def Value.text : Value → String
  | .string s => s
  | .int n => n.repr
  | .bool b => formatBool b
  | .nil => ""
  | .deletedAt _ => ""
  | .other text => text

def FieldType.zero : FieldType → Value
  | .plain .string => .string ""
  | .plain .int => .int 0
  | .plain .bool => .bool false
  | .plain .struct => .other ""
  | .plain (.unsupported _) => .other ""
  | .pointer _ => .nil
  | .deletedAt => .deletedAt none

/-- The fields a full write stores: it skips `gorm.DeletedAt`. -/
def Schema.stored (schema : Schema) : List Field := schema.fields.filter fun f => f.type ≠ .deletedAt

abbrev Hash := KeyedTable (String × String) String Prod.fst

def hSet (hash : Hash) (data : List (String × String)) : Hash := data.foldl put hash

def Schema.data (schema : Schema) (obj : Object) : List (String × String) :=
  schema.stored.map fun f => (f.name,(obj f.name).text)

inductive Op where
  | incrBy (delta : ℤ)
  | setField (value : String)
  deriving DecidableEq

structure Update where
  field : String
  op : Op
  deriving DecidableEq

def fitsInt64 (n : ℤ) : Prop := -2^63 ≤ n ∧ n < 2^63
  deriving Decidable

/-- `HINCRBY` counts a missing field as zero and refuses a text that is no integer and a sum that
overflows. -/
def Op.result (codec : Codec) (old : Option String) : Op → String
  | .setField value => value
  | .incrBy delta =>
    match old with
    | none => delta.repr
    | some text =>
      match codec.redisInt text with
      | none => text
      | some n => if fitsInt64 (n+delta) then (n+delta).repr else text

structure Entry where
  hash : Hash
  volatile : Bool

inductive Phase where
  | readsTTL
  | writes (ttl : Option ℕ)
  | returned
  deriving DecidableEq

structure Pending where
  update : Update
  phase : Phase
  deriving DecidableEq

inductive Command where
  | full (obj : Object)
  | field (update : Update)
  | dropped

structure State where
  key : Option Entry
  pending : List Pending
  log : List Command

inductive Event where
  | hSetObj (obj : Object) (expiration : ℤ)
  | begins (update : Update)
  | readTTL (i : ℕ) (ttl : Option ℕ)
  | writes (i : ℕ)
  | delKey
  | expires

def hashOf (key : Option Entry) : Hash := (key.map Entry.hash).getD empty

def volatileOf (key : Option Entry) : Bool := (key.map Entry.volatile).getD false

/-- `HSET` or `HINCRBY`, and `EXPIRE` in the same transaction where there is a TTL to set. -/
def Update.apply (codec : Codec) (u : Update) (ttl : Option ℕ) (key : Option Entry) : Entry where
  hash := (hashOf key).put (u.field,u.op.result codec (((hashOf key).get? u.field).map Prod.snd))
  volatile := volatileOf key || ttl.isSome

/-- What the TTL read decides: a key without TTL is written plainly, a missing one is left alone. -/
def afterTTL (key : Option Entry) (ttl : Option ℕ) : Phase :=
  match ttl,key with
  | none,_ => .returned
  | some _,none => .returned
  | some seconds,some e =>
      if e.volatile then if 0 < seconds then .writes (some seconds) else .returned else .writes none

def step (codec : Codec) (schema : Schema) (s : State) : Event → State
  | .hSetObj obj expiration =>
    -- `HSET` without fields is refused
    if schema.stored = [] then s
    else { s with
      key := some ⟨hSet (hashOf s.key) (schema.data obj),volatileOf s.key || decide (0 < expiration)⟩
      log := s.log++[.full obj] }
  | .begins update => { s with pending := s.pending++[⟨update,.readsTTL⟩] }
  | .readTTL i ttl =>
    match s.pending[i]? with
    | some ⟨update,.readsTTL⟩ => { s with pending := s.pending.set i ⟨update,afterTTL s.key ttl⟩ }
    | _ => s
  | .writes i =>
    match s.pending[i]? with
    | some ⟨update,.writes ttl⟩ => { s with
        key := some (update.apply codec ttl s.key)
        pending := s.pending.set i ⟨update,.returned⟩
        log := s.log++[.field update] }
    | _ => s
  | .delKey => { s with key := none, log := s.log++[.dropped] }
  | .expires => if volatileOf s.key then { s with key := none, log := s.log++[.dropped] } else s

def readKind (codec : Codec) (name : String) (kind : Kind) (value : String) : Except String Value :=
  match kind with
  | .string => .ok (.string value)
  | .int =>
    match codec.parseInt value with
    | .ok n => .ok (.int n)
    | .error e => .error ("failed to parse int field "++name++": "++e)
  | .bool =>
    match codec.parseBool value with
    | .ok b => .ok (.bool b)
    | .error e => .error ("failed to parse bool field "++name++": "++e)
  | .struct => .ok (.other "")
  | .unsupported k => .error ("unsupported field type: "++k++" for field "++name)

/-- A field that the hash does not have keeps its zero value. -/
def readField (codec : Codec) (f : Field) (text : Option String) : Except String Value :=
  match text with
  | none => .ok f.type.zero
  | some value =>
    match f.type with
    | .plain kind => readKind codec f.name kind value
    | .pointer kind => if value = "" then .ok .nil else readKind codec f.name kind value
    | .deletedAt =>
      if value = "" then .ok (.deletedAt none)
      else match codec.parseTime value with
        | .ok time => .ok (.deletedAt (some time))
        | .error e => .error ("failed to parse DeletedAt field "++f.name++": "++e)

/-- The fields of the struct that `name` is read into, in order. -/
def redisHGetObj (codec : Codec) (schema : Schema) (name : String) (s : State) : Except String (List Value) :=
  if (hashOf s.key).rows = [] then .error ("key "++name++" not found in Redis")
  else schema.fields.mapM fun f => readField codec f (((hashOf s.key).get? f.name).map Prod.snd)

def start : State := ⟨none,[],[]⟩

/-! The structs that are cached, and the updates their quota gets. -/

def userBase : Schema where
  fields := [⟨"Id",.plain .int⟩,⟨"TenantId",.plain .string⟩,⟨"Group",.plain .string⟩,⟨"Email",.plain .string⟩,
    ⟨"Quota",.plain .int⟩,⟨"Status",.plain .int⟩,⟨"Role",.plain .int⟩,⟨"TenantRole",.plain .string⟩,
    ⟨"Username",.plain .string⟩,⟨"Setting",.plain .string⟩,⟨"DailyQuota",.plain .int⟩,⟨"DailyUsed",.plain .int⟩,
    ⟨"LastDailyReset",.plain .int⟩,⟨"BaseGroup",.plain .string⟩,⟨"FallbackGroup",.plain .string⟩]
  unique := by decide

def getUserCacheKey (userId : ℤ) : String := "user:"++userId.repr

def cacheIncrUserQuota (delta : ℤ) : Update := ⟨"Quota",.incrBy delta⟩

def cacheDecrUserQuota (delta : ℤ) : Update := cacheIncrUserQuota (-delta)

/-! What is read comes from one write. -/

def updates (log : List Command) : List Update :=
  log.filterMap fun
    | .field u => some u
    | _ => none

def replay (codec : Codec) (name text : String) (ups : List Update) : String :=
  ups.foldl (fun text u => if u.field = name then u.op.result codec (some text) else text) text

lemma replay_append_singleton : replay codec name text (ups++[u]) =
      if u.field = name then u.op.result codec (some (replay codec name text ups)) else replay codec name text ups := by
  simp [replay]

@[simp] lemma updates_map_field : updates (ups.map .field) = ups := by
  induction ups with
  | nil => rfl
  | cons u ups ih => simp [updates]

variable (codec : Codec) (schema : Schema)

/-- Every field that is read comes from one full write, changed only by later field updates;
`gorm.DeletedAt`, which no full write stores, is left out. -/
def FromOneWrite (name : String) (s : State) : Prop :=
  ∀ values, redisHGetObj codec schema name s = .ok values →
    ∃ before obj after, s.log = before++.full obj::after ∧
      List.Forall₂ (fun f value => f.type ≠ .deletedAt →
        readField codec f (some (replay codec f.name (obj f.name).text (updates after))) =
          .ok value) schema.fields values

def Phase.isWrite : Phase → Bool
  | .writes _ => true
  | _ => false

def KeyThere (s : State) : Event → Prop
  | .writes i => ∀ p ∈ s.pending[i]?, p.phase.isWrite = true → s.key.isSome = true
  | _ => True

instance (s : State) (e : Event) : Decidable (KeyThere s e) := by
  cases e <;> unfold KeyThere <;> infer_instance

def Whole (s : State) : Prop :=
  ∀ e, s.key = some e → ∃ before obj ups, s.log = before++.full obj::ups.map .field ∧
    ∀ f ∈ schema.stored, e.hash.get? f.name = some (f.name,replay codec f.name (obj f.name).text ups)

variable {codec schema}

lemma Schema.data_unique : ((schema.data obj).map Prod.fst).Nodup := by
  have hmap : (schema.data obj).map Prod.fst = schema.stored.map Field.name := by
    rw [data,map_map]
    rfl
  rw [hmap]
  exact schema.unique.sublist (filter_sublist.map _)

lemma Schema.get?_data (hash : Hash) (hf : f ∈ schema.stored) :
    (hSet hash (schema.data obj)).get? f.name = some (f.name,(obj f.name).text) := by
  have hmem : (f.name,(obj f.name).text) ∈ schema.data obj := mem_map_of_mem hf
  exact get?_foldl_put_of_mem data_unique hmem hash

lemma hSetObj_whole (h : Whole codec schema s) :
    Whole codec schema (step codec schema s (.hSetObj obj expiration)) := by
  simp only [step]
  split
  · exact h
  · rintro e he
    cases he
    exact ⟨s.log,obj,[],rfl,fun f hf => Schema.get?_data _ hf⟩

lemma apply_whole (hkey : s.key = some e) (h : Whole codec schema s) (pending : List Pending) :
    Whole codec schema ⟨some (u.apply codec ttl s.key),pending,s.log++[.field u]⟩ := by
  rintro e' he'
  cases he'
  obtain ⟨before,obj,ups,hlog,hget⟩ := h e hkey
  refine ⟨before,obj,ups++[u],by simp [hlog],fun f hf => ?_⟩
  have hhash : hashOf s.key = e.hash := by simp [hashOf,hkey]
  rw [replay_append_singleton,Update.apply,get?_put,hhash]
  by_cases hname : f.name = u.field
  · rw [if_pos hname,if_pos hname.symm,← hname,hget f hf]
    rfl
  · rw [if_neg hname,if_neg (Ne.symm hname)]
    exact hget f hf

lemma step_whole (h : Whole codec schema s) (hG : KeyThere s e) :
    Whole codec schema (step codec schema s e) := by
  cases e with
  | hSetObj obj expiration => exact hSetObj_whole h
  | begins update => exact h
  | readTTL i ttl =>
    simp only [step]
    split <;> exact h
  | writes i =>
    simp only [step]
    split
    · rename_i update ttl hp
      have hsome : s.key.isSome := hG _ (by rw [hp]; rfl) rfl
      obtain ⟨entry,hkey⟩ := Option.isSome_iff_exists.mp hsome
      exact apply_whole hkey h _
    · exact h
  | delKey => exact nofun
  | expires =>
    simp only [step]
    split
    · exact nofun
    · exact h

lemma mapM_eq_ok {α β ε : Type} {g : α → Except ε β} {l : List α} {ys : List β} :
    l.mapM g = .ok ys ↔ List.Forall₂ (fun x y => g x = .ok y) l ys := by
  induction l generalizing ys with
  | nil => cases ys <;> simp [pure,Except.pure]
  | cons x l ih =>
    cases hx : g x with
    | error e => cases ys <;> simp [bind,Except.bind,hx]
    | ok y =>
      cases hl : l.mapM g with
      | error e => cases ys <;> simp [bind,Except.bind,← ih,hl,hx]
      | ok tail => cases ys <;> simp [bind,Except.bind,pure,Except.pure,← ih,hl,hx]

lemma Whole.fromOneWrite (h : Whole codec schema s) : FromOneWrite codec schema name s := by
  intro values hread
  unfold redisHGetObj at hread
  split at hread
  · cases hread
  · rename_i hrows
    cases hkey : s.key with
    | none => simp [hashOf,hkey,empty] at hrows
    | some e =>
      obtain ⟨before,obj,ups,hlog,hget⟩ := h e hkey
      obtain ⟨hleng,hfiel⟩ := forall₂_iff_zip.mp (mapM_eq_ok.mp hread)
      refine ⟨before,obj,_,hlog,forall₂_iff_zip.mpr ⟨hleng,fun {f value} hmem htype => ?_⟩⟩
      have hfie := hfiel hmem
      have hsto : f ∈ schema.stored := by
        simpa [Schema.stored,htype] using (of_mem_zip hmem).1
      have hhash : hashOf s.key = e.hash := by simp [hashOf,hkey]
      rw [hhash,hget f hsto] at hfie
      simpa using hfie

/-- An object is read whole unless a field update writes to a key that is gone. -/
theorem read_from_one_write (codec : Codec) (schema : Schema) (name : String) (es : List Event)
    (hG : Along (step codec schema) KeyThere start es) :
    Always (step codec schema) (FromOneWrite codec schema name) start es := by
  have hstart : Whole codec schema start := nofun
  have hwho := always_of_along (I := Whole codec schema) (fun s e h hg => step_whole h hg) hstart hG
  exact hwho.mono fun s h => h.fromOneWrite

def digits (cs : List Char) : Option ℕ :=
  if cs = [] then none
  else cs.foldlM (fun n c => if '0' ≤ c ∧ c ≤ '9' then some (10*n+(c.toNat - '0'.toNat)) else none) 0

def decimal (text : String) : Option ℤ :=
  match text.toList with
  | '-'::cs => (digits cs).map fun n => -n
  | cs => (digits cs).map fun n => n

def plainCodec : Codec where
  redisInt := decimal
  parseInt text := match decimal text with
    | some n => .ok n
    | none => .error "invalid syntax"
  parseBool text := if text = "true" then .ok true else if text = "false" then .ok false else .error "invalid syntax"
  parseTime text := .ok text

def alice : Object := fun name =>
  if name = "Id" then .int 7
  else if name = "Quota" then .int 100
  else if name = "Status" then .int 1
  else if name = "Role" then .int 1
  else if name ∈ ["DailyQuota","DailyUsed","LastDailyReset"] then .int 0
  else if name = "Group" then .string "vip"
  else .string ""

theorem read_from_one_write_alice :
    let es : List Event := [.hSetObj alice 60,.begins (cacheDecrUserQuota 30),.readTTL 0 (some 60),.writes 0]
    redisHGetObj plainCodec userBase (getUserCacheKey 7) (run (step plainCodec userBase) start es) =
      .ok (userBase.fields.map fun f => if f.name = "Quota" then .int 70 else alice f.name) ∧
    Always (step plainCodec userBase) (FromOneWrite plainCodec userBase (getUserCacheKey 7)) start es :=
  ⟨by decide +kernel,read_from_one_write plainCodec userBase (getUserCacheKey 7) _ (by decide +kernel)⟩

def quotaOnly : List Value := userBase.fields.map fun f => if f.name = "Quota" then .int (-30) else f.type.zero

theorem read_after_expiry :
    let s := run (step plainCodec userBase) start
      [.hSetObj alice 60,.begins (cacheDecrUserQuota 30),.readTTL 0 (some 1),.expires,.writes 0]
    redisHGetObj plainCodec userBase (getUserCacheKey 7) s = .ok quotaOnly ∧
    ¬FromOneWrite plainCodec userBase (getUserCacheKey 7) s := by
  intro s
  have hread : redisHGetObj plainCodec userBase (getUserCacheKey 7) s = .ok quotaOnly := by decide +kernel
  refine ⟨hread,fun h => ?_⟩
  obtain ⟨before,obj,after,hlog,hfie⟩ := h _ hread
  have hs : s.log = [.full alice,.dropped,.field (cacheDecrUserQuota 30)] := rfl
  rw [hs] at hlog
  -- the user's own full write is the only one there is, and it has the status 1
  obtain ⟨rfl,rfl⟩ : obj = alice ∧ after = [.dropped,.field (cacheDecrUserQuota 30)] := by
    rcases before with _ | ⟨a,_ | ⟨b,_ | ⟨c,before⟩⟩⟩ <;> simp at hlog
    exact ⟨hlog.1.symm,hlog.2.symm⟩
  have hmem : ((⟨"Status",.plain .int⟩ : Field),Value.int 0) ∈ userBase.fields.zip quotaOnly := by decide +kernel
  have hstatus := (forall₂_iff_zip.mp hfie).2 hmem (by decide)
  revert hstatus
  decide +kernel

end LurusHub.RedisHash
