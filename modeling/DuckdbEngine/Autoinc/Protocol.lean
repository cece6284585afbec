/-
How sessions draw AUTO_INCREMENT ids.

`ha_duckdb::get_auto_increment` claims ids from the block cached in the table's
`Duckdb_share` with one compare-exchange on the pair `{next, end}`, and refills the
block under a mutex with one query on the table's sequence (`reserve_autoinc_block`).
Any number of sessions run it at once, and DuckDB-side writers draw from the same
sequence.  An `Action` is one atomic step of one of them, `State.next` performs it
when the session is at that point of its code, and a run is any list of actions: an
action of a session that is elsewhere does nothing.

The sequence belongs to DuckDB.  It hands out each value once and in increasing order:
`seq` is a lower bound of what it hands out next, and every value it returns raises it.
Its values are `int64_t`.
-/
import Mathlib
import DuckdbEngine.Lib.StepRun

namespace DuckdbEngine.Autoinc

/-! ### The 64-bit arithmetic of the code -/

/-- The number of values of a `ulonglong`. -/
def word : ℕ := 2 ^ 64

/-- One more than the largest `int64_t`. -/
def int64Limit : ℕ := 2 ^ 63

/-- The sum of two `ulonglong`. -/
def uadd (a b : ℕ) : ℕ := (a + b) % word

/-- The difference of two `ulonglong`, which wraps when `b` is the larger one. -/
def usub (a b : ℕ) : ℕ := (a + word - b) % word

lemma uadd_eq {a b : ℕ} (h : a + b ≤ int64Limit) : uadd a b = a + b := by
  unfold int64Limit at h
  exact Nat.mod_eq_of_lt (by unfold word; omega)

lemma usub_eq {a b : ℕ} (hba : b ≤ a) (ha : a ≤ int64Limit) : usub a b = a - b := by
  unfold int64Limit at ha
  unfold usub word
  omega

/-! ### Sessions and the share -/

/-- `Duckdb_share::Autoinc_range`: the unused ids of the cached block, from `next` up to
but without `stop` (the `end` of the source). -/
structure Range where
  next : ℕ
  stop : ℕ
  deriving DecidableEq

/-- How many ids the code takes the range to have: the unsigned `end - next`. -/
def Range.left (c : Range) : ℕ := usub c.stop c.next

/-- The arguments of a call: the step between two ids, and how many are wanted. -/
structure Request where
  increment : ℕ
  nb : ℕ
  deriving DecidableEq

/-- `need`: the ids the call consumes, as the code computes them. -/
def Request.need (r : Request) : ℕ := (r.nb * r.increment) % word

/-- The multiplication did not overflow, as the code tests it. -/
def Request.fits (r : Request) : Bool := r.need / r.increment == r.nb

/-- What a successful call returns: `first_value`, for a given request. -/
structure Block where
  first : ℕ
  request : Request
  deriving DecidableEq

/-- The ids `[first_value, first_value + nb_desired_values * increment)`. -/
def Block.ids (b : Block) : Set ℕ :=
  Set.Ico b.first (b.first + b.request.nb * b.request.increment)

instance (b : Block) (v : ℕ) : Decidable (v ∈ b.ids) :=
  inferInstanceAs (Decidable (b.first ≤ v ∧ v < b.first + b.request.nb * b.request.increment))

/-- Where a session is in the code, with its local variables. -/
inductive Pc where
  /-- Not in the function. -/
  | idle
  /-- Before the first load of the range. -/
  | loading (r : Request)
  /-- At the test of the fast path, with its copy of the range. -/
  | fast (r : Request) (cur : Range)
  /-- Before the lock of the refill mutex. -/
  | waiting (r : Request)
  /-- With the mutex, before the second load. -/
  | locked (r : Request)
  /-- With the mutex, on the way back to the fast path. -/
  | leaving (r : Request) (cur : Range)
  /-- Inside the query on the sequence, with the values it has drawn. -/
  | reserving (r : Request) (want attempt : ℕ) (drawn : List ℕ)
  /-- With the mutex, on the way out after a failure. -/
  | failing
  /-- With a block, before the store of the range. -/
  | publishing (r : Request) (want first : ℕ)
  /-- After the store, before the unlock and the return. -/
  | published (r : Request) (first : ℕ)
  deriving DecidableEq

/-- A share with its sequence, the sessions on it, and what has been handed out so far. -/
structure State where
  /-- `autoinc_range` -/
  range : Range
  /-- `autoinc_refill_mutex`: the session that has it -/
  mutex : Option ℕ
  /-- the sequence returns no value below this one any more -/
  seq : ℕ
  pc : ℕ → Pc
  /-- what the successful calls have returned, in order -/
  returned : List Block
  /-- the ids drawn by DuckDB-side writers -/
  foreign : List ℕ

def State.init (start : ℕ) : State where
  range := ⟨0, 0⟩
  mutex := none
  seq := start
  pc := fun _ => .idle
  returned := []
  foreign := []

def State.setPc (s : State) (t : ℕ) (p : Pc) : State :=
  { s with pc := Function.update s.pc t p }

/-- The sequence can return `v` next. -/
def State.CanDraw (s : State) (v : ℕ) : Prop := s.seq ≤ v ∧ v < int64Limit

instance (s : State) (v : ℕ) : Decidable (s.CanDraw v) :=
  inferInstanceAs (Decidable (s.seq ≤ v ∧ v < int64Limit))

/-! ### The steps -/

inductive Action where
  /-- A session calls `get_auto_increment`. -/
  | call (t : ℕ) (r : Request)
  /-- The first load of the range. -/
  | load (t : ℕ)
  /-- The test of the fast path and, if it holds, the weak compare-exchange, which may
  fail for no reason. -/
  | claim (t : ℕ) (spurious : Bool)
  | lock (t : ℕ)
  /-- The load under the mutex, and the choice of `want` from the value that
  `autoinc_cache_size` has at that time. -/
  | reload (t : ℕ) (cacheSize : ℕ)
  /-- The query draws its next value. -/
  | draw (t : ℕ) (v : ℕ)
  /-- The query ends, with or without an error. -/
  | finish (t : ℕ) (error : Bool)
  | store (t : ℕ)
  | unlock (t : ℕ)
  /-- A DuckDB-side writer draws a value. -/
  | foreign (v : ℕ)
  deriving DecidableEq

/-- The attempts of `reserve_autoinc_block`. -/
def maxAttempts : ℕ := 3

/-- Where the session goes from the end of its query: the values must span a block of
`want` ids, else they are drawn anew. -/
def afterQuery (r : Request) (want attempt : ℕ) (drawn : List ℕ) : Pc :=
  match drawn.min?, drawn.max? with
  | some lo, some hi =>
      if uadd (usub hi lo) 1 = want then
        if lo = 0 then .failing else .publishing r want lo
      else if attempt + 1 < maxAttempts then .reserving r want (attempt + 1) []
      else .failing
  | _, _ => .failing

/-- One atomic step; `none` when the session is not at this point of its code. -/
def State.next (s : State) : Action → Option State
  | .call t r =>
      if s.pc t = .idle ∧ 1 ≤ r.increment then
        -- a request that overflows is turned down at once
        if r.fits then some (s.setPc t (.loading r)) else some s
      else none
  | .load t =>
      match s.pc t with
      | .loading r => some (s.setPc t (.fast r s.range))
      | _ => none
  | .claim t spurious =>
      match s.pc t with
      | .fast r cur =>
          if r.need ≤ cur.left then
            if s.range = cur ∧ spurious = false then
              some { s.setPc t .idle with
                range := ⟨uadd cur.next r.need, cur.stop⟩
                returned := s.returned ++ [⟨cur.next, r⟩] }
            else some (s.setPc t (.fast r s.range))
          else some (s.setPc t (.waiting r))
      | _ => none
  | .lock t =>
      match s.pc t, s.mutex with
      | .waiting r, none => some { s.setPc t (.locked r) with mutex := some t }
      | _, _ => none
  | .reload t cacheSize =>
      match s.pc t with
      | .locked r =>
          if r.need ≤ s.range.left then some (s.setPc t (.leaving r s.range))
          else some (s.setPc t (.reserving r (max r.need cacheSize) 0 []))
      | _ => none
  | .draw t v =>
      match s.pc t with
      | .reserving r want attempt drawn =>
          if drawn.length < want ∧ s.CanDraw v then
            some { s.setPc t (.reserving r want attempt (drawn ++ [v])) with seq := v + 1 }
          else none
      | _ => none
  | .finish t error =>
      match s.pc t with
      | .reserving r want attempt drawn =>
          if error then some (s.setPc t .failing)
          else if drawn.length = want then some (s.setPc t (afterQuery r want attempt drawn))
          else none
      | _ => none
  | .store t =>
      match s.pc t with
      | .publishing r want first =>
          some { s.setPc t (.published r first) with
            range := ⟨uadd first r.need, uadd first want⟩ }
      | _ => none
  | .unlock t =>
      match s.pc t with
      | .leaving r cur => some { s.setPc t (.fast r cur) with mutex := none }
      | .failing => some { s.setPc t .idle with mutex := none }
      | .published r first =>
          some { s.setPc t .idle with mutex := none, returned := s.returned ++ [⟨first, r⟩] }
      | _ => none
  | .foreign v =>
      if s.CanDraw v then some { s with foreign := v :: s.foreign, seq := v + 1 } else none

/-- A step, where an action that is not possible does nothing. -/
def State.step (s : State) (a : Action) : State := (s.next a).getD s

/-- The state after the actions, from the creation of the table with `START WITH start`. -/
def State.run (start : ℕ) (as : List Action) : State :=
  StepRun.run State.step (State.init start) as

end DuckdbEngine.Autoinc
