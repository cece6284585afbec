/-
The settings of a session that are passed on to DuckDB.

Before a statement is forwarded, `config_duckdb_session` compares the variables of the
session with the values that the context remembers.  For each one that differs it
remembers the new value and prepares a SET statement; then it executes the statements
and only logs their errors.  Other statements of the engine are executed under the
settings that DuckDB has.

DuckDB reads the statements as texts.  `readSet` says what it makes of a SET statement.
-/
import DuckdbEngine.Convertor.Field
import DuckdbEngine.Lib.WriteThrough
import DuckdbEngine.Runtime.TimeZone

namespace DuckdbEngine.SessionConfig

open Sql TimeZone

/-! ### Optimizer names -/

def disabledOptimizersNames : List Text :=
  ["EXPRESSION_REWRITER".toList,
    "FILTER_PULLUP".toList,
    "FILTER_PUSHDOWN".toList,
    "EMPTY_RESULT_PULLUP".toList,
    "CTE_FILTER_PUSHER".toList,
    "REGEX_RANGE".toList,
    "IN_CLAUSE".toList,
    "JOIN_ORDER".toList,
    "DELIMINATOR".toList,
    "UNNEST_REWRITER".toList,
    "UNUSED_COLUMNS".toList,
    "STATISTICS_PROPAGATION".toList,
    "COMMON_SUBEXPRESSIONS".toList,
    "COMMON_AGGREGATE".toList,
    "COLUMN_LIFETIME".toList,
    "BUILD_SIDE_PROBE_SIDE".toList,
    "LIMIT_PUSHDOWN".toList,
    "TOP_N".toList,
    "COMPRESSED_MATERIALIZATION".toList,
    "DUPLICATE_GROUPS".toList,
    "REORDER_FILTER".toList,
    "SAMPLING_PUSHDOWN".toList,
    "JOIN_FILTER_PUSHDOWN".toList,
    "EXTENSION".toList,
    "MATERIALIZED_CTE".toList,
    "SUM_REWRITER".toList,
    "LATE_MATERIALIZATION".toList]

/-- The loop over the names from the number `i` on. -/
def optimizersFrom (val : ℕ) : ℕ → Text → List Text → Text
  | _, result, [] => result
  | i, result, name :: names =>
      if val.testBit i then
        optimizersFrom val (i + 1)
          ((if result.isEmpty then result else result ++ [',']) ++ name) names
      else optimizersFrom val (i + 1) result names

def disabledOptimizersToString (val : ℕ) : Text := optimizersFrom val 0 [] disabledOptimizersNames

/-! ### Settings -/

inductive Setting where
  | timeZone
  | collation
  | mergeJoinThreshold
  | disabledOptimizers
  | explainOutput
deriving DecidableEq

/-- The value of a setting: a text, or a number, whose bits are the disabled optimizers. -/
inductive Value where
  | text (t : Text)
  | number (n : ℕ)
deriving DecidableEq

abbrev Values := Setting → Value

/-- The name of a setting in DuckDB. -/
def Setting.name : Setting → Text
  | timeZone => "TimeZone".toList
  | collation => "default_collation".toList
  | mergeJoinThreshold => "merge_join_threshold".toList
  | disabledOptimizers => "disabled_optimizers".toList
  | explainOutput => "explain_output".toList

inductive ExplainOutput where
  | all
  | optimizedOnly
  | physicalOnly
deriving DecidableEq

/-- `explain_output_names` -/
def ExplainOutput.name : ExplainOutput → Text
  | all => "ALL".toList
  | optimizedOnly => "OPTIMIZED_ONLY".toList
  | physicalOnly => "PHYSICAL_ONLY".toList

/-- The variables of a session.  The name of a time zone has no quotes, and the server knows as many
optimizers as there are names. -/
structure ThdVariables where
  clock : Clock
  timeZone : Text
  forceNoCollation : Bool
  collationConnection : Charset
  mergeJoinThreshold : ℕ
  disabledOptimizers : ℕ
  explainOutput : ExplainOutput
  timeZone_plain : squote ∉ timeZone
  disabledOptimizers_lt : disabledOptimizers < 2 ^ 27

/-- What the context remembers when it is created. -/
def initialCache : Values
  | .timeZone => .text []
  | .collation => .text []
  | .mergeJoinThreshold => .number 4611686018427387904
  | .disabledOptimizers => .number 0
  | .explainOutput => .text []

/-- A SET statement. -/
structure SetStmt where
  setting : Setting
  value : Value

def SetStmt.text (q : SetStmt) : Text :=
  "SET ".toList ++ q.setting.name ++ " = ".toList ++
    match q.value with
    | .text t => squote :: t ++ [squote]
    | .number n =>
        if q.setting = .disabledOptimizers then squote :: disabledOptimizersToString n ++ [squote]
        else natText n

/-! ### `config_duckdb_session` -/

/-- The context with the statements and the warnings so far. -/
structure Pending where
  cache : Values
  configSql : List SetStmt
  warnings : List Text

/-- The block of one setting. -/
def Pending.put (p : Pending) (s : Setting) (v : Value) (warnMsg : Option Text) : Pending :=
  if v = p.cache s then p
  else ⟨Function.update p.cache s v, p.configSql ++ [⟨s, v⟩], p.warnings ++ warnMsg.toList⟩

def collationOf (thd : ThdVariables) : Text :=
  if thd.forceNoCollation then collationBinary else getDuckdbCollation thd.collationConnection

/-- The statements and the warnings.  `get_duckdb_collation` does not warn. -/
def prepareConfig (cache : Values) (thd : ThdVariables) : Pending :=
  let (tzName, warnMsg) := getTimezoneAccordingThd thd.clock thd.timeZone
  let p := Pending.put ⟨cache, [], []⟩ .timeZone (.text tzName) warnMsg
  let p := p.put .collation (.text (collationOf thd)) none
  let p := p.put .mergeJoinThreshold (.number thd.mergeJoinThreshold) none
  let p := p.put .disabledOptimizers (.number thd.disabledOptimizers) none
  p.put .explainOutput (.text thd.explainOutput.name) none

/-! ### DuckDB -/

/-- The optimizers of a list of names, as bits; an empty name stands for none. -/
def optimizerBits (s : Text) : Option ℕ :=
  (s.splitOn ',').foldlM
    (fun bits name =>
      if name = [] then some bits
      else (disabledOptimizersNames.idxOf? name).map fun i => bits ||| 2 ^ i) 0

def readSet : List Token → Option SetStmt
  | [.word set, .word name, .symbol eq, .string s] =>
      if set ≠ "SET".toList ∨ eq ≠ ['='] then none
      else if name = "TIMEZONE".toList then some ⟨.timeZone, .text s⟩
      else if name = "DEFAULT_COLLATION".toList then some ⟨.collation, .text s⟩
      else if name = "DISABLED_OPTIMIZERS".toList then
        (optimizerBits s).map fun n => ⟨.disabledOptimizers, .number n⟩
      else if name = "EXPLAIN_OUTPUT".toList then some ⟨.explainOutput, .text s⟩
      else none
  | [.word set, .word name, .symbol eq, .number n] =>
      if set = "SET".toList ∧ eq = ['='] ∧ name = "MERGE_JOIN_THRESHOLD".toList then
        some ⟨.mergeJoinThreshold, .number n⟩
      else none
  | _ => none

/-- The settings of a connection, and the SET statements that it has executed with their
success. -/
structure Duckdb where
  settings : Values
  log : List (SetStmt × Bool)

/-- A text is executed; a statement that DuckDB understands may still fail. -/
def Duckdb.query (d : Duckdb) (accepts : Setting → Bool) (sql : Text) : Duckdb :=
  match readSet (tokenize (backticksToDoubleQuotes sql)) with
  | none => d
  | some q =>
      { settings :=
          if accepts q.setting then Function.update d.settings q.setting q.value else d.settings
        log := d.log ++ [(q, accepts q.setting)] }

/-! ### Sessions -/

/-- A session: the remembered values and the connection. -/
structure State where
  cache : Values
  duckdb : Duckdb

def State.fresh (settings : Values) : State := ⟨initialCache, settings, []⟩

/-- A statement of the session: a forwarded one, with the variables of the session and the SET
statements that would be accepted, or one that is executed without a look at the variables. -/
inductive Op where
  | forward (thd : ThdVariables) (accepts : Setting → Bool)
  | other

/-- The settings before the statement is executed. -/
def configDuckdbSession (s : State) (thd : ThdVariables) (accepts : Setting → Bool) : State :=
  let p := prepareConfig s.cache thd
  ⟨p.cache, (p.configSql.map SetStmt.text).foldl (fun d sql => d.query accepts sql) s.duckdb⟩

def step (s : State) : Op → State
  | .forward thd accepts => configDuckdbSession s thd accepts
  | .other => s

/-! ### Disabled optimizers -/

/-- The names of the disabled optimizers with their numbers. -/
def disabledFrom (val i : ℕ) (names : List Text) : List (Text × ℕ) :=
  (names.zipIdx i).filter fun p => val.testBit p.2

lemma disabledFrom_cons (val i : ℕ) (name : Text) (names : List Text) :
    disabledFrom val i (name :: names) =
      if val.testBit i then (name, i) :: disabledFrom val (i + 1) names
      else disabledFrom val (i + 1) names := by
  rw [disabledFrom, List.zipIdx_cons, List.filter_cons]
  rfl

lemma intercalate_cons (sep x : Text) (xs : List Text) :
    sep.intercalate (x :: xs) = x ++ xs.flatMap (sep ++ ·) := by
  induction xs generalizing x with
  | nil => simp [List.intercalate]
  | cons y xs ih =>
      rw [List.intercalate_cons_of_ne_nil (List.cons_ne_nil y xs), ih, List.flatMap_cons,
        List.append_assoc, List.append_assoc]

lemma optimizersFrom_of_ne_nil (val i : ℕ) {result : Text} (h : result ≠ []) (names : List Text) :
    optimizersFrom val i result names =
      result ++ ((disabledFrom val i names).map Prod.fst).flatMap ([','] ++ ·) := by
  induction names generalizing i result with
  | nil => exact (List.append_nil _).symm
  | cons name names ih =>
      rw [optimizersFrom, disabledFrom_cons]
      split
      · rw [if_neg (by simpa using h), ih _ (by simp), List.map_cons, List.flatMap_cons,
          List.append_assoc, List.append_assoc, List.append_assoc]
      · exact ih _ h

/-- The names are separated by commas. -/
lemma optimizersFrom_nil (val i : ℕ) {names : List Text} (h : ∀ name ∈ names, name ≠ []) :
    optimizersFrom val i [] names =
      [','].intercalate ((disabledFrom val i names).map Prod.fst) := by
  induction names generalizing i with
  | nil => rfl
  | cons name names ih =>
      obtain ⟨hname, hnames⟩ := List.forall_mem_cons.1 h
      rw [optimizersFrom, disabledFrom_cons]
      split
      · rw [if_pos List.isEmpty_nil, List.nil_append, optimizersFrom_of_ne_nil val (i + 1) hname,
          List.map_cons, intercalate_cons]
      · exact ih _ hnames

/-- Each name is found at its own number. -/
lemma idxOf?_of_mem : ∀ p ∈ disabledOptimizersNames.zipIdx,
    p.1 ≠ [] ∧ ',' ∉ p.1 ∧ squote ∉ p.1 ∧ disabledOptimizersNames.idxOf? p.1 = some p.2 := by
  decide

lemma foldlM_bits {ps : List (Text × ℕ)} (h : ∀ p ∈ ps, p ∈ disabledOptimizersNames.zipIdx)
    (bits : ℕ) :
    (ps.map Prod.fst).foldlM
        (fun bits name =>
          if name = [] then some bits
          else (disabledOptimizersNames.idxOf? name).map fun i => bits ||| 2 ^ i) bits =
      some (ps.foldl (fun bits p => bits ||| 2 ^ p.2) bits) := by
  induction ps generalizing bits with
  | nil => rfl
  | cons p ps ih =>
      obtain ⟨hp, hps⟩ := List.forall_mem_cons.1 h
      obtain ⟨hne, -, -, hidx⟩ := idxOf?_of_mem p hp
      rw [List.map_cons, List.foldlM_cons, if_neg hne, hidx]
      exact ih hps _

lemma testBit_foldl (ps : List (Text × ℕ)) (bits j : ℕ) :
    (ps.foldl (fun bits p => bits ||| 2 ^ p.2) bits).testBit j =
      (bits.testBit j || decide (j ∈ ps.map Prod.snd)) := by
  induction ps generalizing bits with
  | nil => simp
  | cons p ps ih =>
      rw [List.foldl_cons, ih, Nat.testBit_or, Nat.testBit_two_pow, List.map_cons, Bool.or_assoc]
      congr 1
      rw [Bool.eq_iff_iff, Bool.or_eq_true, decide_eq_true_eq, decide_eq_true_eq,
        decide_eq_true_eq, List.mem_cons, eq_comm]

/-- The numbers of the disabled optimizers are the bits of the variable. -/
lemma mem_disabledFrom_iff {val j : ℕ} (h : val < 2 ^ 27) :
    j ∈ (disabledFrom val 0 disabledOptimizersNames).map Prod.snd ↔ val.testBit j = true := by
  constructor
  · intro hmem
    obtain ⟨p, hp, rfl⟩ := List.mem_map.1 hmem
    exact (List.mem_filter.1 hp).2
  · intro hbit
    have hj : j < disabledOptimizersNames.length := by
      by_contra hle
      have hlt : val < 2 ^ j := lt_of_lt_of_le h (Nat.pow_le_pow_right (by decide) (not_lt.1 hle))
      rw [Nat.testBit_lt_two_pow hlt] at hbit
      cases hbit
    have hget : disabledOptimizersNames[j]? = some disabledOptimizersNames[j] :=
      List.getElem?_eq_getElem hj
    exact List.mem_map.2 ⟨(disabledOptimizersNames[j], j),
      List.mem_filter.2 ⟨List.mem_zipIdx_iff_getElem?.2 hget, hbit⟩, rfl⟩

lemma toString_eq (val : ℕ) : disabledOptimizersToString val =
    [','].intercalate ((disabledFrom val 0 disabledOptimizersNames).map Prod.fst) :=
  optimizersFrom_nil val 0 (by decide)

/-- The text of the disabled optimizers denotes them. -/
lemma optimizerBits_toString {val : ℕ} (h : val < 2 ^ 27) :
    optimizerBits (disabledOptimizersToString val) = some val := by
  have hmem : ∀ p ∈ disabledFrom val 0 disabledOptimizersNames,
      p ∈ disabledOptimizersNames.zipIdx := fun p hp => List.mem_of_mem_filter hp
  have hbits : (disabledFrom val 0 disabledOptimizersNames).foldl
      (fun bits p => bits ||| 2 ^ p.2) 0 = val := by
    refine Nat.eq_of_testBit_eq fun j => ?_
    rw [testBit_foldl, Nat.zero_testBit, Bool.false_or, Bool.eq_iff_iff, decide_eq_true_eq,
      mem_disabledFrom_iff h]
  have hfold := foldlM_bits hmem 0
  rw [hbits] at hfold
  rw [toString_eq, optimizerBits]
  by_cases hnil : (disabledFrom val 0 disabledOptimizersNames).map Prod.fst = []
  · rw [hnil] at hfold ⊢
    exact hfold
  · rw [List.splitOn_intercalate _ (fun l hl => ?_) hnil]
    · exact hfold
    · obtain ⟨p, hp, rfl⟩ := List.mem_map.1 hl
      exact (idxOf?_of_mem p (hmem p hp)).2.1

/-! ### The texts of the statements -/

/-- A statement that the engine may send: a text value has no quote in it, and a number of
optimizers has a bit for each one at most. -/
def SetStmt.Valid : SetStmt → Prop
  | ⟨.mergeJoinThreshold, .number _⟩ => True
  | ⟨.disabledOptimizers, .number n⟩ => n < 2 ^ 27
  | ⟨.timeZone, .text t⟩ | ⟨.collation, .text t⟩ | ⟨.explainOutput, .text t⟩ => squote ∉ t
  | _ => False

/-- The atoms of a statement with the given value. -/
def setAtoms (s : Setting) (value : Atom) : List Atom :=
  [.word "SET".toList, .space, .word s.name, .space, .symbol '=', .space, value]

lemma valid_name (s : Setting) : (Atom.word s.name).Valid := by
  cases s <;> exact valid_word (by decide) (by decide)

lemma fits_setAtoms (s : Setting) {value : Atom} (h : Fits [value] none) :
    Fits (setAtoms s value) none :=
  fits_word (valid_word (by decide) (by decide)) rfl (by decide) (fits_space
    (fits_word (valid_name s) rfl (by decide) (fits_space
      (fits_symbol (by decide) (by decide) (fits_space h)))))

lemma mem_of_mem_intercalate {c : Char} {sep : Text} {xs : List Text}
    (h : c ∈ sep.intercalate xs) : c ∈ sep ∨ ∃ x ∈ xs, c ∈ x := by
  cases xs with
  | nil => cases h
  | cons x xs =>
      rw [intercalate_cons, List.mem_append] at h
      rcases h with h | h
      · exact Or.inr ⟨x, List.mem_cons_self, h⟩
      · obtain ⟨y, hy, hc⟩ := List.mem_flatMap.1 h
        exact (List.mem_append.1 hc).imp_right fun hc => ⟨y, List.mem_cons_of_mem x hy, hc⟩

lemma squote_notMem_toString (val : ℕ) : squote ∉ disabledOptimizersToString val := by
  rw [toString_eq]
  intro hmem
  rcases mem_of_mem_intercalate hmem with hcomma | ⟨name, hname, hmem⟩
  · exact absurd hcomma (by decide)
  · obtain ⟨p, hp, rfl⟩ := List.mem_map.1 hname
    exact (idxOf?_of_mem p (List.mem_of_mem_filter hp)).2.2.1 hmem

lemma tokenize_set (s : Setting) {value : Atom} (h : Fits [value] none) :
    tokenize (backticksToDoubleQuotes (textOf (setAtoms s value))) =
      (setAtoms s value).filterMap Atom.token := by
  rw [backticks_textOf (fits_setAtoms s h), tokenize_textOf (fits_setAtoms s h)]

lemma fits_literal_end {t : Text} (h : squote ∉ t) : Fits [.literal t] none :=
  ⟨h, fun hnone => (nomatch hnone), trivial⟩

lemma fits_natText (n : ℕ) : Fits [.digits (natText n)] none :=
  ⟨⟨natText_ne_nil n, fun _ hc => isDigit_of_mem_natText hc⟩, fun _ hnone => (nomatch hnone),
    trivial⟩

/-- DuckDB understands the statement as it is meant. -/
lemma readSet_text {q : SetStmt} (h : q.Valid) :
    readSet (tokenize (backticksToDoubleQuotes q.text)) = some q := by
  have hliteral : ∀ (s : Setting) (t : Text), squote ∉ t →
      tokenize (backticksToDoubleQuotes
        ("SET ".toList ++ s.name ++ " = ".toList ++ (squote :: t ++ [squote]))) =
      (setAtoms s (.literal t)).filterMap Atom.token := by
    intro s t ht
    rw [← tokenize_set s (fits_literal_end ht)]
    simp [setAtoms, Atom.text]
  obtain ⟨s, v⟩ := q
  cases v with
  | text t =>
      cases s with
      | mergeJoinThreshold => exact h.elim
      | disabledOptimizers => exact h.elim
      | _ =>
          rw [SetStmt.text, hliteral _ _ h]
          rfl
  | number n =>
      cases s with
      | disabledOptimizers =>
          have hbits := optimizerBits_toString (show n < 2 ^ 27 from h)
          rw [SetStmt.text]
          dsimp only
          rw [if_pos rfl, hliteral _ _ (squote_notMem_toString n)]
          exact congrArg (Option.map fun n => (⟨.disabledOptimizers, .number n⟩ : SetStmt)) hbits
      | mergeJoinThreshold =>
          have htext : SetStmt.text ⟨.mergeJoinThreshold, .number n⟩ =
              textOf (setAtoms .mergeJoinThreshold (.digits (natText n))) := by
            simp [SetStmt.text, setAtoms, Atom.text]
          have hnumber := numberOf_natText n
          rw [htext, tokenize_set _ (fits_natText n)]
          simp only [setAtoms, List.filterMap_cons, Atom.token, List.filterMap_nil, hnumber]
          rfl
      | _ => exact h.elim

/-! ### Runs -/

/-- The value that the session asks for. -/
def wanted (thd : ThdVariables) : Values
  | .timeZone => .text (getTimezoneAccordingThd thd.clock thd.timeZone).1
  | .collation => .text (collationOf thd)
  | .mergeJoinThreshold => .number thd.mergeJoinThreshold
  | .disabledOptimizers => .number thd.disabledOptimizers
  | .explainOutput => .text thd.explainOutput.name

/-- The values that DuckDB was asked to give to a setting. -/
def sentFor (k : Setting) (log : List (SetStmt × Bool)) : List (Value × Bool) :=
  (log.filter fun e => e.1.setting = k).map fun e => (e.1.value, e.2)

/-- What a session asks for in its forwarded statements. -/
def requests (k : Setting) (ops : List Op) : List (Value × Bool) :=
  ops.filterMap fun
    | .forward thd accepts => some (wanted thd k, accepts k)
    | .other => none

/-- One setting of a session. -/
def State.cell (s : State) (k : Setting) : WriteThrough.Cell Value :=
  ⟨s.cache k, s.duckdb.settings k, sentFor k s.duckdb.log⟩

/-- The session after the statements that are pending. -/
def Pending.done (p : Pending) (d : Duckdb) (accepts : Setting → Bool) : State :=
  ⟨p.cache, (p.configSql.map SetStmt.text).foldl (fun d sql => d.query accepts sql) d⟩

section Step

variable (d : Duckdb) (accepts : Setting → Bool)

lemma query_text {q : SetStmt} (h : q.Valid) :
    d.query accepts q.text =
      { settings :=
          if accepts q.setting then Function.update d.settings q.setting q.value else d.settings
        log := d.log ++ [(q, accepts q.setting)] } := by
  rw [Duckdb.query, readSet_text h]

lemma sentFor_concat (k : Setting) (log : List (SetStmt × Bool)) (q : SetStmt) (b : Bool) :
    sentFor k (log ++ [(q, b)]) =
      sentFor k log ++ if q.setting = k then [(q.value, b)] else [] := by
  rw [sentFor, List.filter_append, List.map_append, ← sentFor, List.filter_cons]
  by_cases h : q.setting = k <;> simp [h]

/-- The block of a setting is a request for it, and leaves the other settings alone. -/
lemma cell_put (p : Pending) (k : Setting) {s : Setting} {v : Value} (hv : SetStmt.Valid ⟨s, v⟩)
    (warnMsg : Option Text) :
    ((p.put s v warnMsg).done d accepts).cell k =
      if k = s then WriteThrough.request ((p.done d accepts).cell k) (v, accepts k)
      else (p.done d accepts).cell k := by
  rw [Pending.put]
  by_cases hsame : v = p.cache s
  · rw [if_pos hsame]
    split
    · next hk =>
        subst hk
        exact (WriteThrough.request_of_eq hsame).symm
    · rfl
  · have hdone : (Pending.mk (Function.update p.cache s v) (p.configSql ++ [⟨s, v⟩])
        (p.warnings ++ warnMsg.toList)).done d accepts =
        ⟨Function.update p.cache s v,
          (p.done d accepts).duckdb.query accepts (SetStmt.text ⟨s, v⟩)⟩ := by
      simp [Pending.done]
    rw [if_neg hsame, hdone, query_text _ _ hv]
    by_cases hk : k = s
    · subst hk
      rw [if_pos rfl, WriteThrough.request_of_ne hsame]
      cases accepts k <;> simp [State.cell, sentFor_concat]
    · rw [if_neg hk]
      cases accepts s <;> simp [State.cell, sentFor_concat, hk, Ne.symm hk, Pending.done]

lemma squote_notMem_getNameByOffset (offset : ℤ) : squote ∉ (getNameByOffset offset).1 := by
  have hmap : ∀ e ∈ timezoneOffsetMap, squote ∉ e.2 := by decide
  rw [getNameByOffset]
  split
  · next name hname =>
      obtain ⟨l₁, l₂, hsplit, -⟩ := List.lookup_eq_some_iff.1 hname
      exact hmap (offset, name) (by simp [hsplit])
  · decide

lemma squote_notMem_timezone (clock : Clock) {name : Text} (h : squote ∉ name) :
    squote ∉ (getTimezoneAccordingThd clock name).1 := by
  rw [getTimezoneAccordingThd]
  split
  · exact squote_notMem_getNameByOffset _
  · split
    · split
      · exact squote_notMem_getNameByOffset _
      · exact h
    · exact h

lemma squote_notMem_collationOf (thd : ThdVariables) : squote ∉ collationOf thd := by
  have hnames : squote ∉ collationBinary ∧ squote ∉ collationNocase ∧
      squote ∉ collationNocaseNoaccent := by decide
  rw [collationOf, getDuckdbCollation]
  split_ifs
  all_goals first | exact hnames.1 | exact hnames.2.1 | exact hnames.2.2

/-- The statements for what a session asks for are understood. -/
lemma valid_wanted (thd : ThdVariables) (k : Setting) : SetStmt.Valid ⟨k, wanted thd k⟩ := by
  cases k with
  | timeZone => exact squote_notMem_timezone _ thd.timeZone_plain
  | collation => exact squote_notMem_collationOf thd
  | mergeJoinThreshold => trivial
  | disabledOptimizers => exact thd.disabledOptimizers_lt
  | explainOutput =>
      have hnames : ∀ e : ExplainOutput, squote ∉ e.name := fun e => by cases e <;> decide
      exact hnames thd.explainOutput

/-- A forwarded statement is a request for each setting. -/
lemma cell_configDuckdbSession (s : State) (thd : ThdVariables) (k : Setting) :
    (configDuckdbSession s thd accepts).cell k =
      WriteThrough.request (s.cell k) (wanted thd k, accepts k) := by
  have hvalid := valid_wanted thd
  have hconfig : configDuckdbSession s thd accepts =
      (prepareConfig s.cache thd).done s.duckdb accepts := rfl
  have hstart : (Pending.mk s.cache [] []).done s.duckdb accepts = s := rfl
  rw [hconfig, prepareConfig]
  dsimp only
  rw [cell_put (v := .text _) _ _ _ _ (hvalid .explainOutput),
    cell_put (v := .number _) _ _ _ _ (hvalid .disabledOptimizers),
    cell_put (v := .number _) _ _ _ _ (hvalid .mergeJoinThreshold),
    cell_put (v := .text _) _ _ _ _ (hvalid .collation),
    cell_put (v := .text _) _ _ _ _ (hvalid .timeZone), hstart]
  cases k <;> rfl

end Step

lemma cell_run (s : State) (ops : List Op) (k : Setting) :
    (StepRun.run step s ops).cell k =
      StepRun.run WriteThrough.request (s.cell k) (requests k ops) := by
  induction ops generalizing s with
  | nil => rfl
  | cons op ops ih =>
      rw [StepRun.run_cons, ih]
      cases op with
      | forward thd accepts =>
          rw [step, cell_configDuckdbSession]
          rfl
      | other => rfl

/-- How a setting of DuckDB follows the session, seen at a forwarded statement. -/
structure Followed (settings : Values) (ops : List Op) (thd : ThdVariables) (k : Setting)
    (s : State) : Prop where
  /-- A value is sent when it differs from the one asked for before, whatever became of that. -/
  sent : initialCache k :: (sentFor k s.duckdb.log).map Prod.fst =
    ((requests k ops).map Prod.fst ++ [wanted thd k]).destutter' (· ≠ ·) (initialCache k)
  /-- DuckDB has the last value that it accepted. -/
  held : s.duckdb.settings k =
    (WriteThrough.lastAccepted (sentFor k s.duckdb.log)).getD (settings k)
  /-- It is the value that the session asks for, if the last one that was sent was accepted. -/
  current : ((sentFor k s.duckdb.log).getLast?.elim (settings k = initialCache k)
    fun r => r.2 = true) → s.duckdb.settings k = wanted thd k

/-- For every run of a session and every pattern of failures. -/
theorem settings_followed (settings : Values) (ops : List Op) (thd : ThdVariables)
    (accepts : Setting → Bool) (k : Setting) :
    Followed settings ops thd k
      (StepRun.run step (.fresh settings) (ops ++ [Op.forward thd accepts])) := by
  have hcell := cell_run (.fresh settings) (ops ++ [Op.forward thd accepts]) k
  have hrequests : requests k (ops ++ [Op.forward thd accepts]) =
      requests k ops ++ [(wanted thd k, accepts k)] := by
    rw [requests, List.filterMap_append]
    rfl
  have hlog := WriteThrough.log_run ((State.fresh settings).cell k)
    (requests k (ops ++ [Op.forward thd accepts]))
  rw [← hcell] at hlog
  have hlog : sentFor k
      (StepRun.run step (.fresh settings) (ops ++ [Op.forward thd accepts])).duckdb.log =
      WriteThrough.sends (initialCache k) (requests k (ops ++ [Op.forward thd accepts])) := hlog
  refine ⟨?_, ?_, fun hlast => ?_⟩
  · rw [hlog, WriteThrough.copy_cons_sends, hrequests, List.map_append]
    rfl
  · have hheld := WriteThrough.held_run ((State.fresh settings).cell k)
      (requests k (ops ++ [Op.forward thd accepts]))
    rw [← hcell] at hheld
    rw [hlog]
    exact hheld
  · rw [hlog] at hlast
    have hcurrent := WriteThrough.held_eq_copy ((State.fresh settings).cell k)
      (requests k (ops ++ [Op.forward thd accepts])) hlast
    rw [WriteThrough.copy_run, ← hcell, hrequests] at hcurrent
    rw [List.map_append, List.map_cons, List.map_nil, List.getLast?_concat] at hcurrent
    exact hcurrent

/-- A session at +02:00 that disables two optimizers. -/
def eastVariables : ThdVariables where
  clock := ⟨0, ⟨70, 0, 1, 0, 0, 0⟩⟩
  timeZone := "+02:00".toList
  forceNoCollation := false
  collationConnection := ⟨.utf8mb4, false, false, false, false⟩
  mergeJoinThreshold := 1000
  disabledOptimizers := 5
  explainOutput := .all
  timeZone_plain := by decide
  disabledOptimizers_lt := by decide

/-- The time zone is refused once, and not sent again with the next forwarded statement; the other
settings are those of the session. -/
theorem settings_followed_of_refused_zone :
    let ops : List Op := [.forward eastVariables fun k => k ≠ .timeZone, .other]
    let s := StepRun.run step (.fresh initialCache) (ops ++ [.forward eastVariables fun _ => true])
    (∀ k, Followed initialCache ops eastVariables k s) ∧
      s.duckdb.settings .timeZone = .text [] ∧ s.duckdb.settings .disabledOptimizers = .number 5 := by
  intro ops s
  exact ⟨settings_followed initialCache ops eastVariables fun _ => true, by decide +kernel,
    by decide +kernel⟩

end DuckdbEngine.SessionConfig
