/-
Reading the rows of a result.

A scan of a table (`rnd_next`) and a pushed-down SELECT (`next_row`) hand the rows of a DuckDB
result to the server one by one, from chunks that they fetch when the current one is used up.
The scan of a table has the whole result in memory, whose chunks are not empty; a SELECT streams
its result, which may have empty chunks and may fail at any fetch, by an error that it records or
by an exception.

Called any number of times, both give every row once, in order, and then the same answer forever:
the end of the file exactly if the result has ended without an error.  With the values of
`Proofs.ValueRoundTrip` the rows of a table are those that were appended to it.
-/
import Mathlib.Tactic.FinCases
import DuckdbEngine.Lib.PullStream
import DuckdbEngine.Proofs.ValueRoundTrip

namespace DuckdbEngine

open Sql CrossEngine PullStream

variable {A C F32 F64 U Q R : Type}

/-! ### Answers -/

/-- What is reported with an internal error: a message of DuckDB or of the handler, or that the
statement was killed. -/
inductive RowError where
  | message (text : Text)
  | killed
deriving DecidableEq

/-- The answer to a call. -/
inductive RowAnswer (A : Type) where
  | row (record : A)
  /-- `HA_ERR_END_OF_FILE` -/
  | endOfFile
  /-- `HA_ERR_INTERNAL_ERROR` -/
  | internalError (reported : Option RowError)
  /-- An exception that the handler does not catch. -/
  | exception

/-- `query_result` or `query_stream` with the chunk that is being read. -/
structure Scan (Q R : Type) where
  source : Option Q
  currentChunk : Option (List R)
  currentRowIndex : ℕ

namespace Scan

/-- The state after `rnd_init` and `init_scan`. -/
def start (source : Q) : Scan Q R := ⟨some source, none, 0⟩

/-- The chunk is missing or used up. -/
def exhausted (s : Scan Q R) : Bool :=
  s.currentChunk.all fun chunk => chunk.length ≤ s.currentRowIndex

/-- The next chunk. -/
def enter (source : Q) (chunk : List R) : Scan Q R := ⟨some source, some chunk, 0⟩

/-- The row at the index is stored, and the index moves on. -/
def deliver (store : R → Option A) (s : Scan Q R) : RowAnswer A × Scan Q R :=
  ((s.currentChunk.bind fun chunk => chunk[s.currentRowIndex]?).bind store).elim (.exception, s)
    fun record => (.row record, { s with currentRowIndex := s.currentRowIndex + 1 })

/-- The rows of the current chunk that are left. -/
def chunkRest (s : Scan Q R) : List R := (s.currentChunk.getD []).drop s.currentRowIndex

lemma chunkRest_of_exhausted {s : Scan Q R} (h : s.exhausted = true) : s.chunkRest = [] := by
  rw [exhausted] at h
  rw [chunkRest]
  cases hc : s.currentChunk with
  | none => exact List.drop_nil
  | some chunk =>
      rw [hc, Option.all_some, decide_eq_true_iff] at h
      exact List.drop_of_length_le h

lemma chunkRest_ne_nil {s : Scan Q R} (h : s.exhausted = false) : s.chunkRest ≠ [] := by
  rw [exhausted] at h
  rw [chunkRest]
  cases hc : s.currentChunk with
  | none =>
      rw [hc] at h
      cases h
  | some chunk =>
      rw [hc, Option.all_some, decide_eq_false_iff_not] at h
      intro hnil
      rw [Option.getD_some, List.drop_eq_nil_iff] at hnil
      exact h hnil

@[simp] lemma chunkRest_enter (source : Q) (chunk : List R) :
    (enter source chunk).chunkRest = chunk := rfl

/-- The first row that is left is delivered. -/
lemma deliver_eq {store : R → Option A} {s : Scan Q R} {r : R} {rs : List R} {record : A}
    (hrest : s.chunkRest = r :: rs) (hstore : store r = some record) :
    (s.deliver store).1 = .row record ∧ (s.deliver store).2.source = s.source ∧
      (s.deliver store).2.chunkRest = rs := by
  obtain ⟨source, chunk, i⟩ := s
  cases chunk with
  | none => simp [chunkRest] at hrest
  | some chunk =>
      have hget : chunk[i]? = some r := by
        rw [← List.head?_drop, show chunk.drop i = r :: rs from hrest]
        rfl
      have hdrop : chunk.drop (i + 1) = rs := by
        rw [← List.tail_drop, show chunk.drop i = r :: rs from hrest]
        rfl
      have hdeliver : deliver store ⟨source, some chunk, i⟩ =
          (.row record, ⟨source, some chunk, i + 1⟩) := by
        rw [deliver, Option.bind_some, hget, Option.bind_some, hstore]
        rfl
      rw [hdeliver]
      exact ⟨rfl, rfl, hdrop⟩

/-! #### What is left -/

/-- The rows that are left, where `chunks` are those of the source. -/
def rest (chunks : Q → List (List R)) (s : Scan Q R) : List R :=
  s.chunkRest ++ (s.source.elim [] chunks).flatten

variable {chunks : Q → List (List R)} {good : Q → Prop} {store : R → Option A} {decode : R → A}

/-- There is a source with the property, and the rows that are left can be stored. -/
structure Sound (chunks : Q → List (List R)) (good : Q → Prop) (store : R → Option A)
    (decode : R → A) (s : Scan Q R) : Prop where
  source : ∃ q, s.source = some q ∧ good q
  stores : ∀ r ∈ s.rest chunks, store r = some (decode r)

lemma rest_enter (q : Q) (chunk : List R) :
    (enter q chunk).rest chunks = chunk ++ (chunks q).flatten := rfl

/-- A call gives the first row that is left, or the answer `last` if there is none. -/
def Gives (chunks : Q → List (List R)) (good : Q → Prop) (store : R → Option A) (decode : R → A)
    (last : RowAnswer A) (s : Scan Q R) (answer : RowAnswer A × Scan Q R) : Prop :=
  answer.2.Sound chunks good store decode ∧
    ((∃ r, answer.1 = .row (decode r) ∧ s.rest chunks = r :: answer.2.rest chunks) ∨
      answer.1 = last ∧ s.rest chunks = [] ∧ answer.2.rest chunks = [])

/-- A row is delivered from a chunk that is not used up. -/
lemma Sound.deliver {s : Scan Q R} (hs : s.Sound chunks good store decode)
    (hne : s.chunkRest ≠ []) (last : RowAnswer A) :
    Gives chunks good store decode last s (s.deliver store) := by
  obtain ⟨r, rs, hrest⟩ := List.exists_cons_of_ne_nil hne
  have hall : s.rest chunks = r :: (rs ++ (s.source.elim [] chunks).flatten) := by
    rw [rest, hrest, List.cons_append]
  have hr := hs.stores r (by rw [hall]; exact List.mem_cons_self ..)
  obtain ⟨hrow, hsource, htail⟩ := deliver_eq hrest hr
  have hrest' : s.rest chunks = r :: (s.deliver store).2.rest chunks := by
    rw [hall, rest, hsource, htail]
  refine ⟨⟨by rw [hsource]; exact hs.source, fun r' hr' => ?_⟩, Or.inl ⟨r, hrow, hrest'⟩⟩
  exact hs.stores r' (by rw [hrest']; exact List.mem_cons_of_mem _ hr')

/-- The rows of a new chunk come before those of the other chunks. -/
lemma Sound.enter {s : Scan Q R} (hs : s.Sound chunks good store decode) {q : Q} {chunk : List R}
    (hgood : good q) (hrest : s.rest chunks = chunk ++ (chunks q).flatten) :
    (enter q chunk).Sound chunks good store decode :=
  ⟨⟨q, rfl, hgood⟩, fun r hr => hs.stores r (by rw [hrest]; exact hr)⟩

/-- The last answer, from a source without chunks. -/
lemma gives_last {s : Scan Q R} {q : Q} (hgood : good q) (hnil : chunks q = [])
    (hrest : s.rest chunks = []) (last : RowAnswer A) (i : ℕ) :
    Gives chunks good store decode last s (last, ⟨some q, none, i⟩) := by
  have hempty : (⟨some q, none, i⟩ : Scan Q R).rest chunks = [] := by
    simp [rest, chunkRest, hnil]
  refine ⟨⟨⟨q, rfl, hgood⟩, fun r hr => ?_⟩, Or.inr ⟨rfl, hrest, hempty⟩⟩
  rw [hempty] at hr
  cases hr

/-- If every call gives a row or the last answer, all calls together give every row once, in
order, and then the last answer forever. -/
theorem answers_of_gives {ι : Type} {call : ι → Scan Q R → RowAnswer A × Scan Q R}
    {last : ι → RowAnswer A}
    (hcall : ∀ i s, s.Sound chunks good store decode →
      Gives chunks good store decode (last i) s (call i s))
    {s : Scan Q R} (hs : s.Sound chunks good store decode) (is : List ι) :
    answers call is s = ((s.rest chunks).map fun r => .row (decode r)).take is.length ++
      (is.drop (s.rest chunks).length).map last := by
  rw [answers_eq (P := fun s => s.Sound chunks good store decode)
    (fun s => (s.rest chunks).map fun r => .row (decode r)) last ?_ ?_ hs is, List.length_map]
  · intro i s a as hs hmap
    obtain ⟨hsound, ⟨r, hrow, hrest⟩ | ⟨-, hnil, -⟩⟩ := hcall i s hs
    · rw [hrest, List.map_cons, List.cons.injEq] at hmap
      exact ⟨hrow.trans hmap.1, hsound, hmap.2⟩
    · rw [hnil] at hmap
      cases hmap
  · intro i s hs hmap
    obtain ⟨hsound, ⟨r, -, hrest⟩ | ⟨hlast, -, hnil⟩⟩ := hcall i s hs
    · rw [hrest] at hmap
      cases hmap
    · exact ⟨hlast, hsound, by rw [hnil, List.map_nil]⟩

end Scan

/-! ### The scan of a table -/

/-- A materialised result: the chunks that are left to fetch, and its error. -/
structure QueryResult (R : Type) where
  chunks : List (List R)
  error : Option Text

/-- The answer when nothing is fetched. -/
def endAnswer (error : Option Text) : RowAnswer A :=
  error.elim .endOfFile fun e => .internalError (some (.message e))

/-- `rnd_next` -/
def rndNext (store : R → Option A) (s : Scan (QueryResult R) R) :
    RowAnswer A × Scan (QueryResult R) R :=
  match s.source with
  | none => (.internalError none, s)
  | some q =>
      if s.exhausted then
        match q.chunks with
        | chunk :: chunks => (Scan.enter { q with chunks := chunks } chunk).deliver store
        | [] => (endAnswer q.error, { s with currentChunk := none })
      else s.deliver store

/-- `rnd_end` -/
def rndEnd (s : Scan (QueryResult R) R) : Scan (QueryResult R) R :=
  { s with source := none, currentChunk := none }

/-- Called again and again, `rnd_next` gives the rows of the result and then its end. -/
theorem rndNext_answers {store : R → Option A} {decode : R → A} {q : QueryResult R}
    (hchunks : ∀ chunk ∈ q.chunks, chunk ≠ [])
    (hstore : ∀ r ∈ q.chunks.flatten, store r = some (decode r)) (calls : List Unit) :
    answers (fun _ => rndNext store) calls (Scan.start q) =
      (q.chunks.flatten.map fun r => .row (decode r)).take calls.length ++
        (calls.drop q.chunks.flatten.length).map fun _ => endAnswer q.error := by
  let good (q' : QueryResult R) : Prop := q'.error = q.error ∧ ∀ chunk ∈ q'.chunks, chunk ≠ []
  have hstart : (Scan.start q).Sound QueryResult.chunks good store decode :=
    ⟨⟨q, rfl, rfl, hchunks⟩, hstore⟩
  refine Scan.answers_of_gives (fun _ s hs => ?_) hstart calls
  obtain ⟨q', hq, herror, hne⟩ := hs.source
  cases hexhausted : s.exhausted with
  | false =>
      simp only [rndNext, hq, hexhausted, Bool.false_eq_true, if_false]
      exact hs.deliver (Scan.chunkRest_ne_nil hexhausted) _
  | true =>
      have hrest : s.rest QueryResult.chunks = q'.chunks.flatten := by
        rw [Scan.rest, Scan.chunkRest_of_exhausted hexhausted, hq]
        rfl
      cases hc : q'.chunks with
      | nil =>
          simp only [rndNext, hq, hexhausted, if_true, hc]
          rw [hc] at hrest
          rw [herror]
          exact Scan.gives_last ⟨herror, hne⟩ hc hrest _ _
      | cons chunk chunks =>
          simp only [rndNext, hq, hexhausted, if_true, hc]
          rw [hc] at hrest hne
          have henter := hs.enter (q := { q' with chunks := chunks })
            ⟨herror, fun c hc => hne c (List.mem_cons_of_mem _ hc)⟩ hrest
          obtain ⟨hsound, hgives⟩ := henter.deliver (hne chunk (List.mem_cons_self ..))
            (endAnswer q.error)
          rw [Scan.rest_enter] at hgives
          rw [Scan.Gives, hrest]
          exact ⟨hsound, hgives⟩

/-! ### The stream of a SELECT -/

/-- What a stream does when its chunks are used up: it ends, it records an error, or it throws. -/
inductive StreamEnd where
  | finished
  | failed (error : Text)
  | throws (error : Text)

/-- `QueryResultStream` -/
structure QueryStream (R : Type) where
  chunks : List (List R)
  ending : StreamEnd
  /-- The error that is recorded. -/
  error : Option Text

namespace QueryStream

/-- `Fetch`: a chunk, or nothing at the end; a stream that has failed throws. -/
def fetch (q : QueryStream R) : Except Text (Option (List R)) × QueryStream R :=
  match q.error with
  | some e => (.error e, q)
  | none =>
      match q.chunks with
      | chunk :: chunks => (.ok (some chunk), { q with chunks := chunks })
      | [] =>
          match q.ending with
          | .finished => (.ok none, q)
          | .failed e => (.ok none, { q with error := some e })
          | .throws e => (.error e, q)

/-- The loop that skips empty chunks, at most `n` rounds. -/
def fetchRows : ℕ → QueryStream R → Except Text (Option (List R)) × QueryStream R
  | 0, q => (.ok none, q)
  | n + 1, q =>
      match q.fetch with
      | (.ok (some []), q') => fetchRows n q'
      | r => r

/-- What is fetched, with the exception caught and its error recorded. -/
def nextChunk (q : QueryStream R) : Option (List R) × QueryStream R :=
  match q.fetchRows (q.chunks.length + 1) with
  | (.ok chunk, q') => (chunk, q')
  | (.error e, q') => (none, { q' with error := some (q'.error.getD e) })

/-- Empty chunks are skipped, up to a chunk with rows or to the end. -/
lemma fetchRows_spec {n : ℕ} {q : QueryStream R} (hn : q.chunks.length < n)
    (herror : q.error = none) :
    (∃ chunk chunks, chunk ≠ [] ∧ q.chunks.flatten = chunk ++ chunks.flatten ∧
      q.fetchRows n = (.ok (some chunk), { q with chunks := chunks })) ∨
    q.chunks.flatten = [] ∧ q.fetchRows n = fetch { q with chunks := [] } := by
  induction n generalizing q with
  | zero => omega
  | succ n ih =>
      obtain ⟨chunks, ending, error⟩ := q
      obtain rfl : error = none := herror
      cases chunks with
      | nil =>
          refine Or.inr ⟨rfl, ?_⟩
          cases ending <;> rfl
      | cons chunk chunks =>
          cases chunk with
          | nil => exact ih (q := ⟨chunks, ending, none⟩) (by simpa using hn) rfl
          | cons r rs => exact Or.inl ⟨r :: rs, chunks, by simp, rfl, rfl⟩

end QueryStream

/-- The error with which a stream ends. -/
def StreamEnd.error : StreamEnd → Option Text
  | .finished => none
  | .failed e => some e
  | .throws e => some e

/-- A stream that ends with `ending`: it has no error yet, or it is at its end. -/
def QueryStream.EndsWith (ending : StreamEnd) (q : QueryStream R) : Prop :=
  q.ending = ending ∧ (q.error = none ∨ q.chunks = [] ∧ q.error = ending.error)

/-- The next chunk has rows; if there is none, the error of the stream is recorded. -/
lemma QueryStream.nextChunk_spec {q : QueryStream R} {ending : StreamEnd}
    (hq : q.EndsWith ending) :
    (∃ chunk q', q.nextChunk = (some chunk, q') ∧ chunk ≠ [] ∧ q'.EndsWith ending ∧
      q.chunks.flatten = chunk ++ q'.chunks.flatten) ∨
    ∃ q', q.nextChunk = (none, q') ∧ q.chunks.flatten = [] ∧ q'.EndsWith ending ∧ q'.chunks = [] ∧
      q'.error = ending.error := by
  obtain ⟨hending, herror | ⟨hnil, herror⟩⟩ := hq
  · rcases fetchRows_spec (Nat.lt_succ_self q.chunks.length) herror with
      ⟨chunk, chunks, hne, hflat, hfetch⟩ | ⟨hflat, hfetch⟩
    · refine Or.inl ⟨chunk, { q with chunks := chunks }, ?_, hne, ⟨hending, Or.inl herror⟩, hflat⟩
      rw [nextChunk, hfetch]
    · refine Or.inr ?_
      obtain ⟨chunks, ending', error⟩ := q
      obtain rfl : error = none := herror
      obtain rfl : ending' = ending := hending
      cases ending' with
      | finished =>
          refine ⟨⟨[], .finished, none⟩, ?_, hflat, ⟨rfl, Or.inl rfl⟩, rfl, rfl⟩
          rw [nextChunk, hfetch]
          rfl
      | failed e =>
          refine ⟨⟨[], .failed e, some e⟩, ?_, hflat, ⟨rfl, Or.inr ⟨rfl, rfl⟩⟩, rfl, rfl⟩
          rw [nextChunk, hfetch]
          rfl
      | throws e =>
          refine ⟨⟨[], .throws e, some e⟩, ?_, hflat, ⟨rfl, Or.inr ⟨rfl, rfl⟩⟩, rfl, rfl⟩
          rw [nextChunk, hfetch]
          rfl
  · refine Or.inr ⟨q, ?_, by rw [hnil]; rfl, ⟨hending, Or.inr ⟨hnil, herror⟩⟩, hnil, herror⟩
    obtain ⟨chunks, ending', error⟩ := q
    obtain rfl : chunks = [] := hnil
    obtain rfl : ending' = ending := hending
    obtain rfl : error = ending'.error := herror
    cases ending' <;> rfl

/-- `report_duckdb_error` -/
def reportDuckdbError (killed : Bool) (error : Text) : RowError :=
  if killed then .killed else .message error

/-- The error of a result with another number of columns than the table of the handler. -/
def columnCountError : RowError :=
  .message "DuckDB result column count does not match MariaDB metadata".toList

/-- The part of `next_row` behind the fetching: the columns are counted first. -/
def deliverChecked (columnCount : R → ℕ) (fieldCount : ℕ) (store : R → Option A)
    (s : Scan (QueryStream R) R) : RowAnswer A × Scan (QueryStream R) R :=
  match s.currentChunk.bind fun chunk => chunk[s.currentRowIndex]? with
  | none => (.exception, s)
  | some r =>
      if columnCount r ≠ fieldCount then (.internalError (some columnCountError), s)
      else s.deliver store

/-- `next_row`; `killed` is `thd->killed` at the time of the call. -/
def nextRow (columnCount : R → ℕ) (fieldCount : ℕ) (store : R → Option A) (killed : Bool)
    (s : Scan (QueryStream R) R) : RowAnswer A × Scan (QueryStream R) R :=
  match s.source with
  | none => (.internalError none, s)
  | some q =>
      if s.exhausted then
        match q.nextChunk with
        | (some chunk, q') => deliverChecked columnCount fieldCount store (Scan.enter q' chunk)
        | (none, q') =>
            (q'.error.elim .endOfFile fun e => .internalError (some (reportDuckdbError killed e)),
              { s with source := some q', currentChunk := none })
      else deliverChecked columnCount fieldCount store s

section select

variable {columnCount : R → ℕ} {fieldCount : ℕ} {store : R → Option A} {decode : R → A}
  {ending : StreamEnd}

/-- The answer at the end of a stream. -/
def StreamEnd.answer (ending : StreamEnd) (killed : Bool) : RowAnswer A :=
  ending.error.elim .endOfFile fun e => .internalError (some (reportDuckdbError killed e))

/-- The row at the index is the first one that is left. -/
lemma currentRow_eq {s : Scan Q R} {r : R} {rs : List R} (hrest : s.chunkRest = r :: rs) :
    (s.currentChunk.bind fun chunk => chunk[s.currentRowIndex]?) = some r := by
  cases hc : s.currentChunk with
  | none => simp [Scan.chunkRest, hc] at hrest
  | some chunk =>
      rw [Scan.chunkRest, hc, Option.getD_some] at hrest
      rw [Option.bind_some, ← List.head?_drop, hrest, List.head?_cons]

/-- A row with the right number of columns. -/
def checked (columnCount : R → ℕ) (fieldCount : ℕ) (store : R → Option A) (r : R) : Option A :=
  if columnCount r = fieldCount then store r else none

lemma deliverChecked_eq {s : Scan (QueryStream R) R} {r : R} {rs : List R}
    (hrest : s.chunkRest = r :: rs) (hcount : columnCount r = fieldCount) :
    deliverChecked columnCount fieldCount store s =
      s.deliver (checked columnCount fieldCount store) := by
  have hr := currentRow_eq hrest
  have hchecked : checked columnCount fieldCount store r = store r := if_pos hcount
  rw [Scan.deliver, hr, Option.bind_some, hchecked]
  simp only [deliverChecked, hr, hcount, ne_eq, not_true, if_false]
  rw [Scan.deliver, hr, Option.bind_some]

lemma nextRow_gives {s : Scan (QueryStream R) R} (killed : Bool)
    (hs : s.Sound QueryStream.chunks (QueryStream.EndsWith ending)
      (checked columnCount fieldCount store) decode) :
    Scan.Gives QueryStream.chunks (QueryStream.EndsWith ending)
      (checked columnCount fieldCount store) decode (ending.answer killed) s
      (nextRow columnCount fieldCount store killed s) := by
  -- a row that is left can be stored, so it has the right number of columns
  have hdeliver {s : Scan (QueryStream R) R} (hs : s.Sound QueryStream.chunks
      (QueryStream.EndsWith ending) (checked columnCount fieldCount store) decode)
      (hne : s.chunkRest ≠ []) :
      Scan.Gives QueryStream.chunks (QueryStream.EndsWith ending)
        (checked columnCount fieldCount store) decode (ending.answer killed) s
        (deliverChecked columnCount fieldCount store s) := by
    obtain ⟨r, rs, hrest⟩ := List.exists_cons_of_ne_nil hne
    have hcount : columnCount r = fieldCount := by
      have hr := hs.stores r (by rw [Scan.rest, hrest]; exact List.mem_cons_self ..)
      by_contra hno
      rw [checked, if_neg hno] at hr
      cases hr
    rw [deliverChecked_eq hrest hcount]
    exact hs.deliver hne _
  obtain ⟨q, hq, hends⟩ := hs.source
  cases hexhausted : s.exhausted with
  | false =>
      simp only [nextRow, hq, hexhausted, Bool.false_eq_true, if_false]
      exact hdeliver hs (Scan.chunkRest_ne_nil hexhausted)
  | true =>
      have hrest : s.rest QueryStream.chunks = q.chunks.flatten := by
        rw [Scan.rest, Scan.chunkRest_of_exhausted hexhausted, hq]
        rfl
      rcases q.nextChunk_spec hends with
        ⟨chunk, q', hnext, hne, hends', hflat⟩ | ⟨q', hnext, hflat, hends', hnil, herror⟩
      · simp only [nextRow, hq, hexhausted, if_true, hnext]
        have henter := hs.enter hends' (hrest.trans hflat)
        obtain ⟨hsound, hgives⟩ := hdeliver henter hne
        rw [Scan.rest_enter] at hgives
        rw [Scan.Gives, hrest, hflat]
        exact ⟨hsound, hgives⟩
      · simp only [nextRow, hq, hexhausted, if_true, hnext, herror]
        exact Scan.gives_last hends' hnil (hrest.trans hflat) _ _

/-- Called again and again, `next_row` gives the rows of the stream and then its end: the end of the
file only if the stream has finished. -/
theorem nextRow_answers {q : QueryStream R} (herror : q.error = none)
    (hrows : ∀ r ∈ q.chunks.flatten, columnCount r = fieldCount ∧ store r = some (decode r))
    (killed : List Bool) :
    answers (nextRow columnCount fieldCount store) killed (Scan.start q) =
      (q.chunks.flatten.map fun r => .row (decode r)).take killed.length ++
        (killed.drop q.chunks.flatten.length).map q.ending.answer := by
  have hstart : (Scan.start q).Sound QueryStream.chunks (QueryStream.EndsWith q.ending)
      (checked columnCount fieldCount store) decode := by
    refine ⟨⟨q, rfl, rfl, Or.inl herror⟩, fun r hr => ?_⟩
    obtain ⟨hcount, hstore⟩ := hrows r hr
    rw [checked, if_pos hcount, hstore]
  exact Scan.answers_of_gives (fun killed s hs => nextRow_gives killed hs) hstart killed

/-- A result with another number of columns gives no row, but an error at every call. -/
theorem nextRow_answers_of_count {q : QueryStream R} (herror : q.error = none)
    (hrows : ∀ r ∈ q.chunks.flatten, columnCount r ≠ fieldCount) (hne : q.chunks.flatten ≠ [])
    (killed : List Bool) :
    answers (nextRow columnCount fieldCount store) killed (Scan.start q) =
      killed.map fun _ => .internalError (some columnCountError) := by
  have hstay {s : Scan (QueryStream R) R} {r : R} {rs : List R} (hrest : s.chunkRest = r :: rs)
      (hr : columnCount r ≠ fieldCount) : deliverChecked columnCount fieldCount store s =
        (.internalError (some columnCountError), s) := by
    simp only [deliverChecked, currentRow_eq hrest, ne_eq, hr, not_false_iff, if_true]
  rcases q.nextChunk_spec (show q.EndsWith q.ending from ⟨rfl, Or.inl herror⟩) with
    ⟨chunk, q', hnext, hchunk, -, hflat⟩ | ⟨-, -, hnil, -⟩
  · obtain ⟨r, rs, rfl⟩ := List.exists_cons_of_ne_nil hchunk
    have hr : columnCount r ≠ fieldCount :=
      hrows r (by rw [hflat]; exact List.mem_append_left _ (List.mem_cons_self ..))
    have henter := hstay (s := Scan.enter q' (r :: rs)) rfl hr
    have hfirst (k : Bool) : nextRow columnCount fieldCount store k (Scan.start q) =
        (.internalError (some columnCountError), Scan.enter q' (r :: rs)) := by
      have hsource : (Scan.start q : Scan (QueryStream R) R).source = some q := rfl
      have hexhausted : (Scan.start q : Scan (QueryStream R) R).exhausted = true := rfl
      simp only [nextRow, hsource, hexhausted, if_true, hnext]
      exact henter
    have hlater (k : Bool) : nextRow columnCount fieldCount store k (Scan.enter q' (r :: rs)) =
        (.internalError (some columnCountError), Scan.enter q' (r :: rs)) := by
      have hsource : (Scan.enter q' (r :: rs)).source = some q' := rfl
      have hexhausted : (Scan.enter q' (r :: rs)).exhausted = false := rfl
      simp only [nextRow, hsource, hexhausted, Bool.false_eq_true, if_false]
      exact henter
    have hagain (ks : List Bool) :
        answers (nextRow columnCount fieldCount store) ks (Scan.enter q' (r :: rs)) =
          ks.map fun _ => .internalError (some columnCountError) := by
      induction ks with
      | nil => rfl
      | cons k ks ih => rw [answers, hlater, ih, List.map_cons]
    cases killed with
    | nil => rfl
    | cons k ks => rw [answers, hfirst, hagain, List.map_cons]
  · exact absurd hnil hne

end select

/-! ### Rows of a table -/

section rows

variable (cfg : Settings) (api : FieldApi C F64) (db : ColumnDb F32 F64 U)

/-- The loop of both handlers that stores the values of a row into the fields. -/
def storeFields (fields : List Field) (row : List (Option (Stored F32 F64 U))) :
    Option (List (Option C)) :=
  (fields.zip row).mapM fun p => storeDuckdbFieldInMysqlFormat api db p.1 p.2

/-- The field may be NULL, or it holds a content that DuckDB can keep. -/
def CellKept (field : Field) (content : Option C) : Prop :=
  content.elim (field.notNull = false) fun c => api.Keeps field c ∧ Storable cfg api db field c

variable {cfg api db} {blobTypeMap : Option (ℕ → Bool)}

/-- The value of a column comes back, NULL as well. -/
lemma CellKept.column {field : Field} {content : Option C} {i : ℕ}
    (h : CellKept cfg api db field content) (hmap : BlobMapFor cfg field i blobTypeMap) :
    ∃ v, appendColumn cfg api db blobTypeMap field i content = some v ∧
      storeDuckdbFieldInMysqlFormat api db field v = some content := by
  cases content with
  | none =>
      have hnull : field.notNull = false := h
      refine ⟨none, rfl, ?_⟩
      rw [storeDuckdbFieldInMysqlFormat, hnull]
      rfl
  | some c =>
      obtain ⟨v, happend, hstore⟩ := readsBack h.1 h.2 hmap
      exact ⟨some v, happend, by rw [storeDuckdbFieldInMysqlFormat, hstore, Option.map_some]⟩

/-- The values of a record come back, from the fields on from number `k`. -/
lemma columns_read_back {fields : List Field} {record : List (Option C)} (k : ℕ)
    (hlen : record.length = fields.length)
    (hcells : ∀ p ∈ fields.zip record, CellKept cfg api db p.1 p.2)
    (hmap : ∀ p ∈ fields.zipIdx k, BlobMapFor cfg p.1 p.2 blobTypeMap) :
    ∃ row, (((fields.zipIdx k).zip record).mapM fun p =>
        appendColumn cfg api db blobTypeMap p.1.1 p.1.2 p.2) = some row ∧
      storeFields api db fields row = some record := by
  induction fields generalizing k record with
  | nil =>
      cases record with
      | nil => exact ⟨[], rfl, rfl⟩
      | cons c record => cases hlen
  | cons field fields ih =>
      cases record with
      | nil => cases hlen
      | cons c record =>
          rw [List.zip_cons_cons, List.forall_mem_cons] at hcells
          rw [List.zipIdx_cons, List.forall_mem_cons] at hmap
          obtain ⟨v, happend, hstore⟩ := CellKept.column hcells.1 hmap.1
          obtain ⟨row, hrow, hback⟩ := ih (k + 1) (Nat.succ.inj hlen) hcells.2 hmap.2
          refine ⟨v :: row, ?_, ?_⟩
          · rw [List.zipIdx_cons, List.zip_cons_cons, List.mapM_cons, happend, hrow]
            rfl
          · rw [storeFields] at hback
            rw [storeFields, List.zip_cons_cons, List.mapM_cons, hstore, hback]
            rfl

/-- The map of `write_row`, or none as in `update_row`. -/
def IsBlobMap (cfg : Settings) (fields : List Field) (blobTypeMap : Option (ℕ → Bool)) : Prop :=
  blobTypeMap = none ∨ blobTypeMap = some (buildDuckdbBlobMap cfg fields)

lemma IsBlobMap.blobMapFor {fields : List Field} (h : IsBlobMap cfg fields blobTypeMap)
    {p : Field × ℕ} (hp : p ∈ fields.zipIdx) : BlobMapFor cfg p.1 p.2 blobTypeMap := by
  intro map hm hstring
  rcases h with h | h
  · rw [h] at hm
    cases hm
  · obtain rfl : buildDuckdbBlobMap cfg fields = map := Option.some.inj (h.symm.trans hm)
    have hget : fields[p.2]? = some p.1 := List.mk_mem_zipIdx_iff_getElem?.1 hp
    rw [buildDuckdbBlobMap, hget, Option.any_some, hstring, Bool.true_and]

/-- A record of the table. -/
def RecordKept (cfg : Settings) (api : FieldApi C F64) (db : ColumnDb F32 F64 U)
    (fields : List Field) (record : List (Option C)) : Prop :=
  record.length = fields.length ∧ ∀ p ∈ fields.zip record, CellKept cfg api db p.1 p.2

/-- A record is appended, and the row is stored as the record. -/
lemma RecordKept.row {fields : List Field} {record : List (Option C)}
    (h : RecordKept cfg api db fields record) (hmap : IsBlobMap cfg fields blobTypeMap) :
    ∃ row, appendColumns cfg api db blobTypeMap fields record = some row ∧
      storeFields api db fields row = some record :=
  columns_read_back 0 h.1 h.2 fun _ hp => hmap.blobMapFor hp

end rows

/-- A scan of a table reads the records that were appended to it.  All records can be appended; and
whatever order and chunks DuckDB gives the rows, repeated calls of `rnd_next` give the records
that the rows were made from, each once, and then the end of the file. -/
theorem scan_reads_appended (cfg : Settings) (api : FieldApi C F64) (db : ColumnDb F32 F64 U)
    {fields : List Field} {records : List (List (Option C))} {blobTypeMap : Option (ℕ → Bool)}
    (hmap : IsBlobMap cfg fields blobTypeMap)
    (hrecords : ∀ record ∈ records, RecordKept cfg api db fields record) :
    ∃ rows, records.mapM (appendColumns cfg api db blobTypeMap fields) = some rows ∧
      ∀ chunks : List (List (List (Option (Stored F32 F64 U)))), (∀ chunk ∈ chunks, chunk ≠ []) →
        chunks.flatten.Perm rows →
        ∃ read : List (List (Option C)), read.Perm records ∧
          read.mapM (appendColumns cfg api db blobTypeMap fields) = some chunks.flatten ∧
          ∀ calls : List Unit,
            answers (fun _ => rndNext (storeFields api db fields)) calls
                (Scan.start ⟨chunks, none⟩) =
              (read.map .row).take calls.length ++
                (calls.drop read.length).map fun _ => .endOfFile := by
  let encode (record : List (Option C)) : List (Option (Stored F32 F64 U)) :=
    (appendColumns cfg api db blobTypeMap fields record).getD []
  let decode (row : List (Option (Stored F32 F64 U))) : List (Option C) :=
    (storeFields api db fields row).getD []
  have hencode : ∀ record ∈ records,
      appendColumns cfg api db blobTypeMap fields record = some (encode record) ∧
        storeFields api db fields (encode record) = some record := by
    intro record hrecord
    obtain ⟨row, happend, hstore⟩ := (hrecords record hrecord).row hmap
    have hrow : encode record = row := by
      show (appendColumns cfg api db blobTypeMap fields record).getD [] = row
      rw [happend, Option.getD_some]
    rw [hrow]
    exact ⟨happend, hstore⟩
  refine ⟨records.map encode, ?_, fun chunks hchunks hperm => ?_⟩
  · rw [AcceptedTable.mapM_eq_some_iff, List.map_map]
    exact List.map_congr_left fun record hrecord => (hencode record hrecord).1
  -- every row of the result was made from a record, which it is stored as
  have hrow : ∀ row ∈ chunks.flatten, storeFields api db fields row = some (decode row) ∧
      appendColumns cfg api db blobTypeMap fields (decode row) = some row := by
    intro row hmem
    obtain ⟨record, hrecord, rfl⟩ := List.mem_map.1 (hperm.mem_iff.1 hmem)
    obtain ⟨happend, hstore⟩ := hencode record hrecord
    have hdecode : decode (encode record) = record := by
      show (storeFields api db fields (encode record)).getD [] = record
      rw [hstore, Option.getD_some]
    rw [hdecode]
    exact ⟨hstore, happend⟩
  refine ⟨chunks.flatten.map decode, ?_, ?_, fun calls => ?_⟩
  · have hback : (records.map encode).map decode = records := by
      rw [List.map_map]
      conv_rhs => rw [← List.map_id records]
      refine List.map_congr_left fun record hrecord => ?_
      show (storeFields api db fields (encode record)).getD [] = record
      rw [(hencode record hrecord).2, Option.getD_some]
    have hmapped := hperm.map decode
    rwa [hback] at hmapped
  · rw [AcceptedTable.mapM_eq_some_iff, List.map_map]
    exact List.map_congr_left fun row hmem => (hrow row hmem).2
  · have h := rndNext_answers (q := ⟨chunks, none⟩) hchunks (fun row hmem => (hrow row hmem).1)
      calls
    rw [h, List.length_map, List.map_map]
    rfl

/-- A content that is a number or a date. -/
def plainApi : FieldApi (ℤ × DateTimeValue) Unit where
  valInt _ c := c.1
  valReal _ _ := ()
  valDecimal _ _ := ⟨false, 0, 0, [], [], rfl, rfl, by simp, by simp, by simp⟩
  getDate _ c := c.2
  getTime _ _ := ⟨false, 0, 0, 0, 0⟩
  valStr _ _ := []
  default _ := (0, zeroDate)
  storeInt _ v _ := (v, zeroDate)
  storeReal _ _ := (0, zeroDate)
  storeDate _ tm := (0, tm)
  storeTime _ _ := (0, zeroDate)
  storeText _ _ _ := (0, zeroDate)
  strToDDhhmmssff _ := ⟨false, 0, 0, 0, 0⟩

def plainDb : ColumnDb Unit Unit Unit where
  widen := id
  narrow := id
  uuidOf _ := none
  uuidText _ := []
  convert _ _ := none
  getInt _ _ := none
  getFloat _ := none
  getDouble _ := none
  text _ := []

/-- A nullable column of a type without parameters. -/
def plainField (name : String) (type : FieldType) : Field where
  fieldName := name.toList
  realType := type
  isUuid := false
  unsigned := false
  precision := 0
  dec := 0
  charset := none
  invisible := .visible
  notNull := false
  priKey := false
  noDefaultValue := false
  autoIncrement := false
  defaultExpr := none
  defaultRecord := none

def leapDate : DateTimeValue := midnight 2024 2 29 (by decide)

lemma recordKept_plain (x : ℤ) (hx : -2 ^ 31 ≤ x ∧ x ≤ 2 ^ 31 - 1) (cfg : Settings) :
    RecordKept cfg plainApi plainDb [plainField "a" .long, plainField "d" .date]
      [some (x, zeroDate), some (0, leapDate)] := by
  have hlong : plainApi.Keeps (plainField "a" .long) (x, zeroDate) ∧
      Storable cfg plainApi plainDb (plainField "a" .long) (x, zeroDate) := by
    refine ⟨⟨fun lo hi h => ?_, ?_, ?_, ?_, ?_, ?_, ?_, ?_⟩, ⟨by decide, ?_, ?_, ?_, ?_⟩⟩
    · cases h
      have hwrap : IntType.bigint.wrap x = x := by
        refine IntType.wrap_of_inRange ?_
        simp only [IntType.InRange, IntType.offset, IntType.modulus]
        omega
      refine ⟨x, hx.1, hx.2, hwrap.symm, ?_⟩
      rw [hwrap]
      rfl
    all_goals
      intro h
      exact absurd h (by decide)
  have hdate : plainApi.Keeps (plainField "d" .date) (0, leapDate) ∧
      Storable cfg plainApi plainDb (plainField "d" .date) (0, leapDate) := by
    refine ⟨⟨fun lo hi h => ?_, ?_, ?_, fun _ => rfl, fun _ => rfl, ?_, ?_, ?_⟩,
      ⟨by decide, ?_, ?_, fun _ => by decide, ?_⟩⟩
    · cases h
    all_goals
      intro h
      exact absurd h (by decide)
  exact ⟨rfl, List.forall_mem_cons.2 ⟨hlong, List.forall_mem_singleton.2 hdate⟩⟩

/-- Two rows with a leap day, in one chunk. -/
theorem scan_reads_appended_leap_days :
    let cfg : Settings := ⟨false, true, fun v w => v != w⟩
    let fields := [plainField "a" .long, plainField "d" .date]
    let record (x : ℤ) := [some (x, zeroDate), some (0, leapDate)]
    ∃ rows, [record 7, record (-1)].mapM (appendColumns cfg plainApi plainDb none fields) =
        some rows ∧
      ∃ read : List (List (Option (ℤ × DateTimeValue))), read.Perm [record 7, record (-1)] ∧
        ∀ calls : List Unit,
          answers (fun _ => rndNext (storeFields plainApi plainDb fields)) calls
              (Scan.start ⟨[rows], none⟩) =
            (read.map .row).take calls.length ++
              (calls.drop read.length).map fun _ => .endOfFile := by
  intro cfg fields record
  have hkept : ∀ r ∈ [record 7, record (-1)], RecordKept cfg plainApi plainDb fields r :=
    List.forall_mem_cons.2 ⟨recordKept_plain 7 (by decide) cfg,
      List.forall_mem_singleton.2 (recordKept_plain (-1) (by decide) cfg)⟩
  obtain ⟨rows, hrows, hread⟩ := scan_reads_appended cfg plainApi plainDb (Or.inl rfl) hkept
  have hne : rows ≠ [] := by
    rintro rfl
    rw [AcceptedTable.mapM_eq_some_iff] at hrows
    cases hrows
  obtain ⟨read, hperm, -, hanswers⟩ := hread [rows] (List.forall_mem_singleton.2 hne) (by simp)
  exact ⟨rows, hrows, read, hperm, hanswers⟩

/-- Every row of the stream can be stored into the record, as the record that `decode` gives: no
conversion of one of its values throws an exception. -/
def QueryStream.Storable (store : R → Option A) (decode : R → A) (q : QueryStream R) : Prop :=
  ∀ row ∈ q.chunks.flatten, store row = some (decode row)

/-- The rows of a pushed-down SELECT.  Whatever its rows are, if they can be stored, whatever chunks
its stream has, empty ones too, and however it ends, repeated calls of `next_row` give every row
once, in order, and then the same answer forever, which is the end of the file only if the stream
has finished without an error.  A result with another number of columns than the handler has fields
gives no row at all. -/
theorem select_rows_delivered (columnCount : R → ℕ) (fieldCount : ℕ) (store : R → Option A)
    (decode : R → A) {q : QueryStream R} (herror : q.error = none)
    (hstore : q.Storable store decode) (columns : ℕ)
    (hcolumns : ∀ row ∈ q.chunks.flatten, columnCount row = columns) (killed : List Bool) :
    answers (nextRow columnCount fieldCount store) killed (Scan.start q) =
      if columns = fieldCount ∨ q.chunks.flatten = [] then
        (q.chunks.flatten.map fun row => .row (decode row)).take killed.length ++
          (killed.drop q.chunks.flatten.length).map q.ending.answer
      else killed.map fun _ => .internalError (some columnCountError) := by
  by_cases hempty : q.chunks.flatten = []
  · rw [if_pos (Or.inr hempty)]
    refine nextRow_answers herror (fun row hrow => ?_) killed
    rw [hempty] at hrow
    cases hrow
  by_cases hcount : columns = fieldCount
  · rw [if_pos (Or.inl hcount)]
    exact nextRow_answers herror
      (fun row hrow => ⟨(hcolumns row hrow).trans hcount, hstore row hrow⟩) killed
  · rw [if_neg (by rintro (h | h) <;> contradiction)]
    refine nextRow_answers_of_count herror (fun row hrow hlen => ?_) hempty killed
    exact hcount ((hcolumns row hrow).symm.trans hlen)

/-- A stream with empty chunks that fails: the second call behind the rows finds the statement
killed. -/
theorem select_rows_delivered_failing :
    let row (x : ℤ) : List (Option (Stored Unit Unit Unit)) := [some (.int .integer x)]
    let q : QueryStream (List (Option (Stored Unit Unit Unit))) :=
      ⟨[[], [row 1, row 2], [], [row 3]], .failed "lost".toList, none⟩
    answers (nextRow List.length 1 (storeFields plainApi plainDb [plainField "a" .long]))
        [false, false, false, false, true] (Scan.start q) =
      [.row [some (1, zeroDate)], .row [some (2, zeroDate)], .row [some (3, zeroDate)],
        .internalError (some (.message "lost".toList)), .internalError (some .killed)] := by
  intro row q
  have hrows : q.chunks.flatten = [row 1, row 2, row 3] := rfl
  have hcolumns : ∀ r ∈ q.chunks.flatten, r.length = 1 := by
    intro r hr
    rw [hrows] at hr
    fin_cases hr <;> rfl
  have hstore : q.Storable (storeFields plainApi plainDb [plainField "a" .long])
      fun r => (storeFields plainApi plainDb [plainField "a" .long] r).getD [] := by
    intro r hr
    rw [hrows] at hr
    fin_cases hr <;> rfl
  have h := select_rows_delivered List.length 1 _ _ (q := q) rfl hstore 1 hcolumns
    [false, false, false, false, true]
  rw [hrows] at h
  exact h

end DuckdbEngine
