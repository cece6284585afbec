/-
Time intervals of `addtime` and `subtime`.

`parse_mariadb_interval_us` reads `[-][D ]H:M:S[.F]` with one index.  The loop over the three
fields stores a field at each separator and at the end of the text; it ends at a point, behind
the third field or behind the end of the text, and the index says where a fraction begins.
Numbers are of type `int` and the sum is of type `int64_t`; an overflow has no result.
-/
import DuckdbEngine.Lib.IndexLoop
import DuckdbEngine.Lib.MachineInt

namespace DuckdbEngine.Compat

open MachineInt IndexLoop

/-! ### The functions -/

/-- `std::string(data + start, len)` -/
def substr (data : List Char) (start len : ℕ) : List Char := (data.drop start).take len

/-- The loop over the fields, at most `n` rounds.  It returns the index and the fields that have
been stored. -/
def readFields (data : List Char) : ℕ → ℕ → ℕ → List ℤ → Option (ℕ × List ℤ)
  | 0, _, _, _ => none
  | n + 1, i, numStart, parts =>
      if i ≤ data.length ∧ parts.length < 3 then
        -- the end of the text closes a field as a separator does
        if i = data.length ∨ data[i]? = some ':' ∨ data[i]? = some '.' then do
          let part ← atoi (substr data numStart (i - numStart))
          if i < data.length ∧ data[i]? = some '.' then return (i + 1, parts ++ [part])
          else readFields data n (i + 1) (i + 1) (parts ++ [part])
        else readFields data n (i + 1) numStart parts
      else some (i, parts)

/-- The number before the first space, and where the fields begin. -/
def readDays (data : List Char) (i : ℕ) : Option (ℤ × ℕ) :=
  match (data.drop i).idxOf? ' ' with
  | none => some (0, i)
  | some space => (atoi (substr data i space)).map fun days => (days, i + space + 1)

def readUsec (data : List Char) (i : ℕ) : Option ℤ :=
  if i < data.length then atoi (((data.drop i).rightpad 6 '0').take 6) else some 0

/-- The number of seconds is small enough, whatever the four numbers of type `int` are. -/
def totalUs (days hours minutes seconds usec : ℤ) : Option ℤ := do
  let us ← signed 64 ((days * 86400 + hours * 3600 + minutes * 60 + seconds) * 1000000)
  signed 64 (us + usec)

def parseMariadbIntervalUs (data : List Char) : Option ℤ :=
  if data.length = 0 then some 0
  else do
    let neg := data[0]? = some '-'
    let (days, i) ← readDays data (if neg then 1 else 0)
    let (i, parts) ← readFields data (data.length + 2) i i []
    let usec ← readUsec data i
    let total ← totalUs days (parts.getD 0 0) (parts.getD 1 0) (parts.getD 2 0) usec
    if neg then signed 64 (-total) else return total

def addtimeFunc (ts : ℤ) (interval : List Char) : Option ℤ := do
  let us ← parseMariadbIntervalUs interval
  signed 64 (ts + us)

def subtimeFunc (ts : ℤ) (interval : List Char) : Option ℤ := do
  let us ← parseMariadbIntervalUs interval
  signed 64 (ts - us)

/-! ### Intervals -/

/-- `[-][D ]H:M:S[.F]`.  The texts of the numbers have any number of leading zeros. -/
structure IntervalText where
  neg : Bool
  days : Option (List Char)
  hours : List Char
  minutes : List Char
  seconds : List Char
  fraction : Option (List Char)
  isDigit : ∀ c ∈ days.getD [] ++ hours ++ minutes ++ seconds ++ fraction.getD [], c.isDigit = true
  days_le : decimal (days.getD []) ≤ 34
  hours_le : decimal hours ≤ 838
  minutes_lt : decimal minutes < 60
  seconds_lt : decimal seconds < 60

namespace IntervalText

variable (t : IntervalText)

def sign : List Char := if t.neg then ['-'] else []
def day : List Char := t.days.elim [] fun ds => ds ++ [' ']
def point : List Char := t.fraction.elim [] fun f => '.' :: f

def clock : List Char :=
  t.hours ++ ':' :: (t.minutes ++ ':' :: (t.seconds ++ t.point))

def text : List Char := t.sign ++ (t.day ++ t.clock)

/-- The first six digits; missing digits are zeros. -/
def fractionUs (f : List Char) : ℕ := decimal (f.take 6) * 10 ^ (6 - (f.take 6).length)

/-- The microseconds without the sign. -/
def total : ℕ :=
  (decimal (t.days.getD []) * 86400 + decimal t.hours * 3600 + decimal t.minutes * 60 +
    decimal t.seconds) * 1000000 + fractionUs (t.fraction.getD [])

def micros : ℤ := (if t.neg then -1 else 1) * t.total

lemma mem_clock {c : Char} (hc : c ∈ t.clock) : c.isDigit = true ∨ c = ':' ∨ c = '.' := by
  have hdigit := t.isDigit
  have hpoint : c ∈ t.point → c ∈ t.fraction.getD [] ∨ c = '.' := by
    rw [point]
    cases t.fraction with
    | none => exact fun h => absurd h List.not_mem_nil
    | some f => exact fun h => (List.mem_cons.1 h).symm
  simp only [clock, List.mem_append, List.mem_cons] at hc
  simp only [List.mem_append] at hdigit
  grind

lemma mem_day {c : Char} (hc : c ∈ t.day) : c.isDigit = true ∨ c = ' ' := by
  have hdigit := t.isDigit
  rw [day] at hc
  cases hdays : t.days with
  | none =>
      rw [hdays] at hc
      exact absurd hc List.not_mem_nil
  | some ds =>
      rw [hdays] at hc hdigit
      rcases List.mem_append.1 hc with hmem | hmem
      · exact Or.inl (hdigit c (by simp [hmem]))
      · exact Or.inr (List.mem_singleton.1 hmem)

end IntervalText

/-! ### Reading the parts -/

section

variable {data w rest : List Char} {n i numStart : ℕ} {parts : List ℤ}

lemma idxOf?_append_cons {c : Char} (hc : c ∉ w) (rest : List Char) :
    (w ++ c :: rest).idxOf? c = some w.length := by
  induction w with
  | nil => rw [List.nil_append, List.idxOf?_cons, beq_self_eq_true, if_pos rfl, List.length_nil]
  | cons d w ih =>
      rw [List.mem_cons, not_or] at hc
      rw [List.cons_append, List.idxOf?_cons, beq_false_of_ne (Ne.symm hc.1),
        if_neg Bool.false_ne_true, ih hc.2, Option.map_some, List.length_cons]

/-- Digits are skipped. -/
lemma readFields_digits (hparts : parts.length < 3) (hw : ∀ c ∈ w, c.isDigit = true)
    (hdrop : data.drop i = w ++ rest) :
    readFields data (n + w.length) i numStart parts =
      readFields data n (i + w.length) numStart parts := by
  induction w generalizing i with
  | nil => rfl
  | cons c w ih =>
      obtain ⟨hlt, hget, hnext⟩ := inside hdrop
      have hne (x : Char) (hx : x.isDigit = false) : data[i]? ≠ some x := by
        rw [hget]
        rintro ⟨rfl⟩
        exact Bool.false_ne_true (hx.symm.trans (hw c List.mem_cons_self))
      rw [List.length_cons, ← Nat.add_assoc, readFields, if_pos ⟨hlt.le, hparts⟩,
        if_neg (by simp [hlt.ne, hne ':' rfl, hne '.' rfl]),
        ih (fun x hx => hw x (List.mem_cons_of_mem c hx)) hnext, Nat.add_right_comm i 1,
        Nat.add_assoc i]

/-- A field is stored at the separator behind it and at the end of the text. -/
lemma readFields_part (hparts : parts.length < 3) (hw : ∀ c ∈ w, c.isDigit = true)
    (hfits : decimal w < 2 ^ 31) (hi : i ≤ data.length) (hdrop : data.drop i = w ++ rest)
    (hrest : ∀ c ∈ rest.head?, c = ':' ∨ c = '.') :
    readFields data (n + 1 + w.length) i i parts =
      if rest.head? = some '.' then some (i + w.length + 1, parts ++ [(decimal w : ℤ)])
      else
        readFields data n (i + w.length + 1) (i + w.length + 1) (parts ++ [(decimal w : ℤ)]) := by
  have hget := getElem?_add_length hdrop
  have hlen : data.length = i + w.length + rest.length := by
    have h := congrArg List.length hdrop
    rw [List.length_drop, List.length_append] at h
    omega
  have hsep : i + w.length = data.length ∨ data[i + w.length]? = some ':' ∨
      data[i + w.length]? = some '.' := by
    rw [hget]
    cases rest with
    | nil => exact Or.inl hlen.symm
    | cons c rest =>
        rw [List.head?_cons, Option.some.injEq, Option.some.injEq]
        exact Or.inr (hrest c rfl)
  have hpoint : i + w.length < data.length ∧ data[i + w.length]? = some '.' ↔
      rest.head? = some '.' := by
    rw [hget, and_iff_right_iff_imp]
    intro h
    obtain ⟨rest', rfl⟩ := List.head?_eq_some_iff.1 h
    rw [hlen, List.length_cons]
    omega
  have hpart : atoi (substr data i (i + w.length - i)) = some (decimal w : ℤ) := by
    rw [substr, hdrop, Nat.add_sub_cancel_left, List.take_left]
    exact atoi_digits hw hfits
  rw [readFields_digits hparts hw hdrop, readFields, if_pos ⟨by omega, hparts⟩, if_pos hsep, hpart,
    Option.bind_eq_bind, Option.bind_some]
  exact if_congr hpoint rfl rfl

lemma readFields_colon (hparts : parts.length < 3) (hw : ∀ c ∈ w, c.isDigit = true)
    (hfits : decimal w < 2 ^ 31) (hdrop : data.drop i = w ++ ':' :: rest) :
    readFields data (n + 1 + w.length) i i parts =
      readFields data n (i + w.length + 1) (i + w.length + 1) (parts ++ [(decimal w : ℤ)]) := by
  have hi : i ≤ data.length := by
    by_contra h
    rw [List.drop_of_length_le (by omega)] at hdrop
    simp at hdrop
  rw [readFields_part hparts hw hfits hi hdrop (by rintro c ⟨⟩; exact Or.inl rfl),
    if_neg (by simp)]

/-- The parts of the text together. -/
lemma parseMariadbIntervalUs_eq {days usec : ℤ} {j : ℕ} (hne : ¬data.length = 0)
    (hdays : readDays data (if data[0]? = some '-' then 1 else 0) = some (days, i))
    (hfields : readFields data (data.length + 2) i i [] = some (j, parts))
    (husec : readUsec data j = some usec) :
    parseMariadbIntervalUs data =
      (totalUs days (parts.getD 0 0) (parts.getD 1 0) (parts.getD 2 0) usec).bind fun total =>
        if data[0]? = some '-' then signed 64 (-total) else some total := by
  rw [parseMariadbIntervalUs, if_neg hne]
  simp only [hdays, hfields, husec, Option.bind_eq_bind, Option.bind_some, Option.pure_def]

/-- Cutting off behind six digits and filling up with zeros. -/
lemma decimal_take_rightpad (f : List Char) :
    decimal ((f.rightpad 6 '0').take 6) = IntervalText.fractionUs f := by
  have hlen : (f.take 6).length = min 6 f.length := List.length_take
  have htake : (f.rightpad 6 '0').take 6 = f.take 6 ++ List.replicate (6 - f.length) '0' := by
    rw [List.rightpad, List.take_append, List.take_replicate, Nat.min_self]
  rw [htake, decimal_append, decimal_replicate_zero, List.length_replicate, Nat.add_zero,
    IntervalText.fractionUs, hlen]
  congr 2
  omega

lemma isDigit_take_rightpad {f : List Char} (hf : ∀ c ∈ f, c.isDigit = true) :
    ∀ c ∈ (f.rightpad 6 '0').take 6, c.isDigit = true := by
  intro c hc
  rcases List.mem_append.1 (List.mem_of_mem_take hc) with hmem | hmem
  · exact hf c hmem
  · rw [List.eq_of_mem_replicate hmem]
    rfl

lemma fractionUs_lt {f : List Char} (hf : ∀ c ∈ f, c.isDigit = true) :
    IntervalText.fractionUs f < 1000000 := by
  have hlt := decimal_lt (isDigit_take_rightpad hf)
  have hpow : 10 ^ ((f.rightpad 6 '0').take 6).length ≤ 10 ^ 6 :=
    Nat.pow_le_pow_right (by decide) (List.length_take_le 6 _)
  rw [decimal_take_rightpad] at hlt
  omega

/-- There is a fraction only if the index is before the end. -/
lemma readUsec_eq {f : List Char} (hf : ∀ c ∈ f, c.isDigit = true) (hdrop : data.drop i = f) :
    readUsec data i = some (IntervalText.fractionUs f : ℤ) := by
  have hlt := fractionUs_lt hf
  rw [readUsec, hdrop]
  split
  · rw [atoi_digits (isDigit_take_rightpad hf) (by rw [decimal_take_rightpad]; omega),
      decimal_take_rightpad]
  · next hend =>
      rw [List.drop_of_length_le (by omega)] at hdrop
      subst hdrop
      rfl

end

namespace IntervalText

variable (t : IntervalText) {data : List Char} {i : ℕ}

lemma isDigit_of_mem {c : Char} (h : c ∈ t.days.getD [] ∨ c ∈ t.hours ∨ c ∈ t.minutes ∨
    c ∈ t.seconds ∨ c ∈ t.fraction.getD []) : c.isDigit = true := by
  refine t.isDigit c ?_
  simp only [List.mem_append]
  tauto

lemma readDays_eq (hdrop : data.drop i = t.day ++ t.clock) :
    readDays data i = some ((decimal (t.days.getD []) : ℤ), i + t.day.length) := by
  have hclock : ' ' ∉ t.clock := by
    intro h
    have := t.mem_clock h
    revert this
    decide
  have hle := t.days_le
  have hdigit : ∀ c ∈ t.days.getD [], c.isDigit = true := fun c hc => t.isDigit_of_mem (Or.inl hc)
  rw [readDays, hdrop]
  rw [day] at hdrop ⊢
  cases hdays : t.days with
  | none =>
      rw [Option.elim_none, List.nil_append, List.idxOf?_eq_none_iff.2 hclock]
      rfl
  | some ds =>
      rw [hdays, Option.getD_some] at hle hdigit
      rw [hdays] at hdrop
      have hspace : (ds ++ [' '] ++ t.clock).idxOf? ' ' = some ds.length := by
        rw [List.append_assoc]
        exact idxOf?_append_cons (fun h => absurd (hdigit ' ' h) (by decide)) t.clock
      rw [Option.elim_some, hspace]
      dsimp only
      rw [substr, hdrop, Option.elim_some, List.append_assoc, List.take_left,
        atoi_digits hdigit (by omega), List.length_append]
      rfl

lemma head?_point : t.point.head? = t.fraction.map fun _ => '.' := by
  rw [point]
  cases t.fraction <;> rfl

/-- The third field ends at the end of the text or at the point, and the fraction begins behind. -/
lemma readFields_clock (hdrop : data.drop i = t.clock) :
    ∃ j, readFields data (data.length + 2) i i [] =
        some (j, [(decimal t.hours : ℤ), (decimal t.minutes : ℤ), (decimal t.seconds : ℤ)]) ∧
      data.drop j = t.fraction.getD [] := by
  have hhours := t.hours_le
  have hminutes := t.minutes_lt
  have hseconds := t.seconds_lt
  have hdigit : ∀ c ∈ t.seconds, c.isDigit = true := fun c hc => t.isDigit_of_mem (by simp [hc])
  have hlen : data.length =
      i + t.hours.length + 1 + t.minutes.length + 1 + t.seconds.length + t.point.length := by
    have h := congrArg List.length hdrop
    simp only [clock, List.length_drop, List.length_append, List.length_cons] at h
    omega
  have hfuel : data.length + 2 = i + t.point.length + 1 + 1 + t.seconds.length + 1 +
      t.minutes.length + 1 + t.hours.length := by
    omega
  have hdrop' := drop_next (drop_next hdrop)
  have hpoint : ∀ c ∈ t.point.head?, c = ':' ∨ c = '.' := by
    rw [head?_point]
    intro c hc
    obtain ⟨-, -, rfl⟩ := Option.map_eq_some_iff.1 hc
    exact Or.inr rfl
  refine ⟨i + t.hours.length + 1 + t.minutes.length + 1 + t.seconds.length + 1, ?_, ?_⟩
  · rw [hfuel,
      readFields_colon (by decide) (fun c hc => t.isDigit_of_mem (by simp [hc])) (by omega) hdrop,
      readFields_colon (by simp) (fun c hc => t.isDigit_of_mem (by simp [hc])) (by omega)
        (drop_next hdrop),
      readFields_part (by simp) hdigit (by omega) (by omega) hdrop' hpoint]
    -- without a point the index is behind the end of the text
    split
    · rfl
    · next hend =>
        have hnone : t.point = [] := by
          rw [head?_point] at hend
          rw [point]
          cases hfraction : t.fraction with
          | none => rfl
          | some f => simp [hfraction] at hend
        rw [hnone, List.length_nil] at hlen
        rw [readFields, if_neg (by omega)]
        rfl
  · cases hfraction : t.fraction with
    | none =>
        rw [point, hfraction] at hlen
        exact List.drop_of_length_le (by simp at hlen; omega)
    | some f =>
        rw [point, hfraction] at hdrop'
        exact drop_next hdrop'

lemma sign_iff : t.text[0]? = some '-' ↔ t.neg = true := by
  rw [text, sign]
  cases t.neg with
  | true => exact iff_of_true rfl rfl
  | false =>
      refine iff_of_false (fun h => ?_) Bool.false_ne_true
      have hmem : '-' ∈ t.day ++ t.clock := List.mem_of_getElem? h
      rcases List.mem_append.1 hmem with hmem | hmem
      · exact absurd (t.mem_day hmem) (by decide)
      · exact absurd (t.mem_clock hmem) (by decide)

/-- The index behind the sign. -/
lemma ite_sign : (if t.text[0]? = some '-' then 1 else 0) = t.sign.length := by
  rw [if_congr t.sign_iff rfl rfl, sign]
  cases t.neg <;> rfl

lemma fractionUs_lt_of_text : fractionUs (t.fraction.getD []) < 1000000 :=
  fractionUs_lt fun _ hc => t.isDigit_of_mem (by simp [hc])

/-- The numbers are far below the limits of the types. -/
lemma total_lt : t.total < 2 ^ 62 := by
  have hdays := t.days_le
  have hhours := t.hours_le
  have hminutes := t.minutes_lt
  have hseconds := t.seconds_lt
  have hfraction := t.fractionUs_lt_of_text
  rw [total]
  omega

lemma totalUs_eq :
    totalUs (decimal (t.days.getD [])) (decimal t.hours) (decimal t.minutes) (decimal t.seconds)
      (fractionUs (t.fraction.getD [])) = some (t.total : ℤ) := by
  have hlt := t.total_lt
  rw [total] at hlt
  rw [totalUs, signed_of_fits (by norm_num; omega), Option.bind_eq_bind, Option.bind_some,
    signed_of_fits (by norm_num; omega), total]
  push_cast
  rfl

end IntervalText

lemma parseMariadbIntervalUs_text (t : IntervalText) :
    parseMariadbIntervalUs t.text = some t.micros := by
  have hne : ¬t.text.length = 0 := by
    simp [IntervalText.text, IntervalText.clock]
  have hbody : t.text.drop t.sign.length = t.day ++ t.clock := List.drop_left
  have hclock : t.text.drop (t.sign.length + t.day.length) = t.clock := by
    rw [← List.drop_drop, hbody, List.drop_left]
  have hdays := t.readDays_eq hbody
  obtain ⟨j, hfields, hfraction⟩ := t.readFields_clock hclock
  have husec := readUsec_eq (fun c hc => t.isDigit_of_mem (by simp [hc])) hfraction
  have hlt := t.total_lt
  rw [← t.ite_sign] at hdays hfields
  rw [parseMariadbIntervalUs_eq hne hdays hfields husec]
  show (totalUs _ (decimal t.hours) (decimal t.minutes) (decimal t.seconds) _).bind _ = _
  rw [t.totalUs_eq, Option.bind_some, if_congr t.sign_iff rfl rfl, IntervalText.micros]
  split
  · rw [signed_of_fits (by norm_num; omega), neg_one_mul]
  · rw [one_mul]

/-- For every interval of the documented format the result is its number of microseconds, which
`addtime` adds and `subtime` subtracts. -/
theorem time_interval_text (t : IntervalText) :
    parseMariadbIntervalUs t.text = some t.micros ∧
    ∀ ts, addtimeFunc ts t.text = signed 64 (ts + t.micros) ∧
      subtimeFunc ts t.text = signed 64 (ts - t.micros) := by
  have hparse := parseMariadbIntervalUs_text t
  refine ⟨hparse, fun ts => ⟨?_, ?_⟩⟩
  · rw [addtimeFunc, hparse]
    rfl
  · rw [subtimeFunc, hparse]
    rfl

example : ∃ t : IntervalText, t.text = "-1 002:03:04.5".toList ∧ t.micros = -93784500000 :=
  ⟨⟨true, some ['1'], ['0', '0', '2'], ['0', '3'], ['0', '4'], some ['5'],
    List.all_eq_true.1 (by decide), by decide, by decide, by decide, by decide⟩, by decide,
    by decide⟩

end DuckdbEngine.Compat
