/-
Generated DML decodes to what was encoded.

The text of a convertor is the text of a sequence of atoms that do not run into each
other.  So it is tokenized into the intended statement, with the names in order, and
each value is decoded to the original number or bytes; the rewriting of backticks does
not change it.
-/
import Mathlib.Data.Nat.Digits.Lemmas
import DuckdbEngine.Convertor.DmlText

namespace DuckdbEngine

open Sql

/-! ### Lists with separators -/

/-- The lists one after the other with a separator in between. -/
def joinWith {α : Type*} (sep : List α) : List (List α) → List α
  | [] => []
  | [x] => x
  | x :: y :: xs => x ++ sep ++ joinWith sep (y :: xs)

lemma joinWith_append_sep {α : Type*} (sep x : List α) (xs : List (List α)) :
    joinWith sep (x :: xs) ++ sep = (x :: xs).flatMap fun y => y ++ sep := by
  induction xs generalizing x with
  | nil => simp [joinWith]
  | cons y xs ih =>
      rw [joinWith, List.append_assoc, ih]
      simp

lemma cutEnd_append (query sep : Text) : cutEnd sep.length (query ++ sep) = query := by
  simp [cutEnd]

lemma appendEach_eq {ι : Type*} {sep : Text} {item : Text → ι → Text} {text : ι → Text}
    {fields : List ι} (hitem : ∀ q, ∀ i ∈ fields, item q i = q ++ text i) (query : Text) :
    appendEach sep item query fields = query ++ (fields.map text).flatMap fun y => y ++ sep := by
  induction fields generalizing query with
  | nil => simp [appendEach]
  | cons i fields ih =>
      rw [appendEach, List.foldl_cons, ← appendEach,
        ih fun q j hj => hitem q j (List.mem_cons_of_mem i hj), hitem query i List.mem_cons_self]
      simp

/-- Cutting off the last separator leaves separators in between only. -/
lemma cutEnd_appendEach {ι : Type*} {sep : Text} {item : Text → ι → Text} {text : ι → Text}
    {fields : List ι} (hitem : ∀ q, ∀ i ∈ fields, item q i = q ++ text i) (query : Text)
    (h : fields ≠ []) :
    cutEnd sep.length (appendEach sep item query fields) =
      query ++ joinWith sep (fields.map text) := by
  rw [appendEach_eq hitem]
  obtain ⟨i, fields, rfl⟩ := List.exists_cons_of_ne_nil h
  rw [List.map_cons, ← joinWith_append_sep, ← List.append_assoc, cutEnd_append]

lemma textOf_joinWith (sep : List Atom) (xs : List (List Atom)) :
    textOf (joinWith sep xs) = joinWith (textOf sep) (xs.map textOf) := by
  induction xs with
  | nil => rfl
  | cons x xs ih =>
      cases xs with
      | nil => rfl
      | cons y xs => simp [joinWith, ih]

lemma filterMap_joinWith {α β : Type*} (f : α → Option β) (sep : List α) (xs : List (List α)) :
    (joinWith sep xs).filterMap f = joinWith (sep.filterMap f) (xs.map fun x => x.filterMap f) := by
  induction xs with
  | nil => rfl
  | cons x xs ih =>
      cases xs with
      | nil => rfl
      | cons y xs => simp [joinWith, ih]

lemma fits_joinWith {sep : List Atom} {c : Char} (hsep : ∀ h, Fits sep h)
    (hhead : (textOf sep).head? = some c) {xs : List (List Atom)} {h : Option Char}
    (hx : ∀ x ∈ xs, Fits x (some c) ∧ Fits x h) : Fits (joinWith sep xs) h := by
  induction xs with
  | nil => trivial
  | cons x xs ih =>
      cases xs with
      | nil => exact (hx x (by simp)).2
      | cons y xs =>
          rw [joinWith, List.append_assoc, fits_append, fits_append]
          refine ⟨?_, hsep _, ih fun z hz => hx z (List.mem_cons_of_mem x hz)⟩
          rw [textOf_append, List.head?_append, hhead]
          exact (hx x (by simp)).1

/-! ### Numbers -/

lemma isDigit_digitChar {d : ℕ} (h : d < 10) : (digitChar d).isDigit = true := by
  interval_cases d <;> decide

lemma toNat_digitChar {d : ℕ} (h : d < 10) : (digitChar d).toNat - '0'.toNat = d := by
  interval_cases d <;> decide

lemma natText_ne_nil (n : ℕ) : natText n ≠ [] := by
  rw [natText]
  split
  · simp
  · simpa using Nat.digits_ne_nil_iff_ne_zero.2 ‹_›

lemma isDigit_of_mem_natText {n : ℕ} {c : Char} (h : c ∈ natText n) : c.isDigit = true := by
  rw [natText] at h
  split at h
  · cases List.mem_singleton.1 h
    decide
  · obtain ⟨d, hd, rfl⟩ := List.mem_map.1 (List.mem_reverse.1 h)
    exact isDigit_digitChar (Nat.digits_lt_base (by norm_num) hd)

lemma numberOf_natText (n : ℕ) : numberOf (natText n) = n := by
  have hlist : ∀ l : List ℕ, (∀ d ∈ l, d < 10) →
      (l.map digitChar).foldr (fun c n => 10 * n + (c.toNat - '0'.toNat)) 0 =
        Nat.ofDigits 10 l := by
    intro l hl
    induction l with
    | nil => rfl
    | cons d l ih =>
        rw [List.forall_mem_cons] at hl
        rw [List.map_cons, List.foldr_cons, ih hl.2, toNat_digitChar hl.1, Nat.ofDigits_cons]
        omega
  rw [natText, numberOf]
  split
  case isTrue h => subst h; decide
  case isFalse =>
      rw [List.foldl_reverse, hlist _ fun d hd => Nat.digits_lt_base (by norm_num) hd,
        Nat.ofDigits_digits]

lemma numberOf_replicate_zero (m : ℕ) (s : Text) :
    numberOf (List.replicate m '0' ++ s) = numberOf s := by
  induction m with
  | zero => rfl
  | succ m ih =>
      rw [List.replicate_succ, List.cons_append, numberOf, List.foldl_cons]
      exact ih

/-! ### Bytes -/

/-- The value of a hexadecimal digit. -/
def hexValue (c : Char) : ℕ := if c.isDigit then c.toNat - 48 else c.toNat - 55

/-- The bytes that a blob literal denotes: an escape stands for one byte, any other character
for itself. -/
def blobBytes : Text → List UInt8
  | [] => []
  | c :: s =>
      if c = backslash && s.head? = some 'x' then
        match s with
        | _ :: a :: b :: s => UInt8.ofNat (16 * hexValue a + hexValue b) :: blobBytes s
        | _ => []
      else UInt8.ofNat c.toNat :: blobBytes s

lemma hexValue_hexDigit {n : ℕ} (h : n < 16) : hexValue (hexDigit n) = n := by
  interval_cases n <;> decide

lemma blobBytes_hexBytes (bytes : List UInt8) : blobBytes (hexBytes bytes) = bytes := by
  induction bytes with
  | nil => rfl
  | cons b bytes ih =>
      have hb := b.toNat_lt
      rw [hexBytes, List.flatMap_cons, ← hexBytes]
      simp only [List.cons_append, List.nil_append, blobBytes, List.head?_cons, Bool.and_self,
        decide_true, if_true, ih]
      rw [hexValue_hexDigit (by omega), hexValue_hexDigit (by omega), Nat.div_add_mod]
      simp

lemma squote_notMem_hexBytes (bytes : List UInt8) : squote ∉ hexBytes bytes := by
  intro h
  obtain ⟨b, -, hb⟩ := List.mem_flatMap.1 h
  have hb' := b.toNat_lt
  have hdigit : ∀ n < 16, squote ≠ hexDigit n := by decide
  simp only [List.mem_cons, List.not_mem_nil, or_false] at hb
  rcases hb with hb | hb | hb | hb
  · exact absurd hb (by decide)
  · exact absurd hb (by decide)
  · exact hdigit _ (by omega) hb
  · exact hdigit _ (by omega) hb

/-! ### Values -/

/-- What a literal of the generated statements denotes. -/
inductive Decoded where
  | null
  | number (v : ℤ)
  | blob (bytes : List UInt8)
  | varchar (bytes : List UInt8)
deriving DecidableEq

def nullWord : Text := "NULL".toList
def blobWord : Text := "BLOB".toList
def decodeWord : Text := "DECODE".toList
def varcharWord : Text := "VARCHAR".toList

/-- The value that a sequence of tokens denotes: NULL, a number with an optional sign, a string
literal cast to BLOB, or such a blob decoded and cast to VARCHAR. -/
def decodeValue : List Token → Option Decoded
  | [.word w] => if w = nullWord then some .null else none
  | [.number n] => some (.number n)
  | [.symbol s, .number n] => if s = ['-'] then some (.number (-n)) else none
  | [.string s, .symbol op, .word w] =>
      if op = [':', ':'] ∧ w = blobWord then some (.blob (blobBytes s)) else none
  | [.word d, .symbol l, .string s, .symbol op, .word w, .symbol r, .symbol op', .word w'] =>
      if d = decodeWord ∧ l = ['('] ∧ op = [':', ':'] ∧ w = blobWord ∧ r = [')'] ∧
          op' = [':', ':'] ∧ w' = varcharWord then
        some (.varchar (blobBytes s))
      else none
  | _ => none

/-- The value that was encoded, if it is NULL, an integer or a string of bytes. -/
def original : Option SqlValue → Option Decoded
  | none => some .null
  | some (.integer _ v) => some (.number v)
  | some (.blob bytes) => some (.blob bytes)
  | some (.varchar bytes) => some (.varchar bytes)
  | _ => none

/-- The digits of an integer without its sign. -/
def digitText (width : ℕ) (v : ℤ) : Text :=
  if v < 0 then natText v.natAbs
  else List.replicate (width - (natText v.natAbs).length) '0' ++ natText v.natAbs

/-- The tokens of a value. -/
def valueTokens : Option SqlValue → List Token
  | none => [.word nullWord]
  | some (.integer _ v) =>
      if v < 0 then [.symbol ['-'], .number v.natAbs] else [.number v.natAbs]
  | some (.blob bytes) => [.string (hexBytes bytes), .symbol [':', ':'], .word blobWord]
  | some (.varchar bytes) =>
      [.word decodeWord, .symbol ['('], .string (hexBytes bytes), .symbol [':', ':'],
        .word blobWord, .symbol [')'], .symbol [':', ':'], .word varcharWord]
  | _ => []

/-- The atoms of a value. -/
def valueAtoms : Option SqlValue → List Atom
  | none => [.word nullWord]
  | some (.integer width v) =>
      if v < 0 then [.symbol '-', .digits (digitText width v)] else [.digits (digitText width v)]
  | some (.blob bytes) => [.literal (hexBytes bytes), .cast, .word blobWord]
  | some (.varchar bytes) =>
      [.word decodeWord, .symbol '(', .literal (hexBytes bytes), .cast, .word blobWord,
        .symbol ')', .cast, .word varcharWord]
  | _ => []

lemma numberOf_digitText (width : ℕ) (v : ℤ) : numberOf (digitText width v) = v.natAbs := by
  rw [digitText]
  split
  · exact numberOf_natText _
  · rw [numberOf_replicate_zero, numberOf_natText]

lemma digitText_valid (width : ℕ) (v : ℤ) : (Atom.digits (digitText width v)).Valid := by
  rw [digitText]
  split
  · exact ⟨natText_ne_nil _, fun c hc => isDigit_of_mem_natText hc⟩
  · refine ⟨by simp [natText_ne_nil], fun c hc => ?_⟩
    rcases List.mem_append.1 hc with hc | hc
    · rw [List.eq_of_mem_replicate hc]
      decide
    · exact isDigit_of_mem_natText hc

lemma appendFieldValueToSql_eq {v : Option SqlValue} (hv : (original v).isSome) (query : Text) :
    appendFieldValueToSql query v = query ++ textOf (valueAtoms v) := by
  match v, hv with
  | none, _ => rfl
  | some (.integer width v), _ =>
      rw [appendFieldValueToSql, intText, valueAtoms, digitText]
      split <;> simp [Atom.text]
  | some (.blob bytes), _ =>
      simp only [appendFieldValueToSql, toHex, valueAtoms, textOf_cons, textOf_nil, Atom.text,
        List.append_assoc, List.cons_append, List.append_nil]
      rfl
  | some (.varchar bytes), _ =>
      simp only [appendFieldValueToSql, toHex, valueAtoms, textOf_cons, textOf_nil, Atom.text,
        List.append_assoc, List.cons_append, List.append_nil]
      rfl

lemma filterMap_valueAtoms (v : Option SqlValue) :
    (valueAtoms v).filterMap Atom.token = valueTokens v := by
  match v with
  | none => rfl
  | some (.integer width v) =>
      by_cases h : v < 0 <;> simp [valueAtoms, valueTokens, Atom.token, h, numberOf_digitText]
  | some (.blob bytes) => rfl
  | some (.varchar bytes) => rfl
  | some (.numeric _) | some (.temporal _) | some (.time _) | some (.uuid _)
  | some .unsupported => rfl

/-- The tokens of a value are decoded to the value. -/
lemma decodeValue_valueTokens {v : Option SqlValue} (hv : (original v).isSome) :
    decodeValue (valueTokens v) = original v := by
  match v, hv with
  | none, _ => rfl
  | some (.integer width v), _ =>
      by_cases h : v < 0
      · simp [valueTokens, decodeValue, original, h, abs_of_neg h]
      · simp [valueTokens, decodeValue, original, h, abs_of_nonneg (not_lt.1 h)]
  | some (.blob bytes), _ => exact congrArg (some ∘ Decoded.blob) (blobBytes_hexBytes bytes)
  | some (.varchar bytes), _ => exact congrArg (some ∘ Decoded.varchar) (blobBytes_hexBytes bytes)

/-- The character that follows does not belong to a word. -/
def Ends (h : Option Char) : Prop := ∀ c ∈ h, isWordChar c = false

/-- The validity of a word, as a check of its characters one by one. -/
lemma valid_word {w : Text} (hne : w ≠ [])
    (h : (w.all fun c => c.isAlpha || decide (c = '_')) = true) : (Atom.word w).Valid :=
  ⟨hne, fun c hc => by simpa using List.all_eq_true.1 h c hc⟩

lemma valid_words : (Atom.word nullWord).Valid ∧ (Atom.word blobWord).Valid ∧
    (Atom.word decodeWord).Valid ∧ (Atom.word varcharWord).Valid :=
  ⟨valid_word (by decide) (by decide), valid_word (by decide) (by decide),
    valid_word (by decide) (by decide), valid_word (by decide) (by decide)⟩

lemma Ends.isDigit {h : Option Char} (hend : Ends h) : ∀ c ∈ h, c.isDigit = false := by
  intro c hc
  have hw := hend c hc
  simp only [isWordChar, Char.isAlphanum, Bool.or_eq_false_iff] at hw
  exact hw.1.1.1.2

lemma fits_valueAtoms (v : Option SqlValue) {h : Option Char} (hend : Ends h) :
    Fits (valueAtoms v) h := by
  obtain ⟨hnull, hblob, hdecode, hvarchar⟩ := valid_words
  match v with
  | none => exact ⟨hnull, hend, trivial⟩
  | some (.integer width v) =>
      have hdigits : Fits [.digits (digitText width v)] h :=
        ⟨digitText_valid width v, hend.isDigit, trivial⟩
      rw [valueAtoms]
      split
      · refine ⟨(by decide : '-' ∈ Atom.symbols), fun _ hdash => ?_, hdigits⟩
        -- The sign is followed by a digit.
        obtain ⟨c, ds, hds⟩ := List.exists_cons_of_ne_nil (digitText_valid width v).1
        have hc : c.isDigit = true := (digitText_valid width v).2 c (hds ▸ List.mem_cons_self)
        rw [textOf_cons, Atom.text, hds] at hdash
        cases hdash
        exact absurd hc (by decide)
      · exact hdigits
  | some (.blob bytes) =>
      refine fits_literal (squote_notMem_hexBytes bytes) rfl (by decide) (fits_cast ?_)
      exact ⟨hblob, hend, trivial⟩
  | some (.varchar bytes) =>
      refine fits_word hdecode rfl (by decide) (fits_symbol (by decide) (by decide) ?_)
      refine fits_literal (squote_notMem_hexBytes bytes) rfl (by decide) (fits_cast ?_)
      refine fits_word hblob rfl (by decide) (fits_symbol (by decide) (by decide) (fits_cast ?_))
      exact ⟨hvarchar, hend, trivial⟩
  | some (.numeric _) | some (.temporal _) | some (.time _) | some (.uuid _)
  | some .unsupported => trivial

/-! ### Statements -/

namespace DmlConvertor

variable (x : DmlConvertor)

/-- A keyword as a token. -/
def keyword (w : String) : Token := .word w.toList

/-- The tokens of `column = value`. -/
def assignmentTokens (value : ℕ → Option SqlValue) (i : ℕ) : List Token :=
  [.ident (x.fieldName i), .symbol ['=']] ++ valueTokens (value i)

def tableTokens : List Token := [.ident x.name.dbName, .symbol ['.'], .ident x.name.tableName]

def whereTokens : List Token :=
  if x.table.indexFields.isEmpty then []
  else
    keyword "WHERE" ::
      joinWith [keyword "AND"] (x.table.indexFields.map (x.assignmentTokens x.oldValue))

/-- The intended statement. -/
def skeleton : DmlKind → List Token
  | .insert =>
      [keyword "INSERT", keyword "INTO"] ++ x.tableTokens ++ [.symbol ['(']] ++
        joinWith [.symbol [',']] (x.writeFields.map fun i => [.ident (x.fieldName i)]) ++
        [.symbol [')'], keyword "VALUES", .symbol ['(']] ++
        joinWith [.symbol [',']] (x.writeFields.map fun i => valueTokens (x.newValue i)) ++
        [.symbol [')']]
  | .update =>
      [keyword "UPDATE"] ++ x.tableTokens ++ [keyword "SET"] ++
        joinWith [.symbol [',']] (x.writeFields.map (x.assignmentTokens x.newValue)) ++ x.whereTokens
  | .delete => [keyword "DELETE", keyword "FROM"] ++ x.tableTokens ++ x.whereTokens

/-- The values that a statement prints. -/
def values : DmlKind → List (Option SqlValue)
  | .insert => x.writeFields.map x.newValue
  | .update => x.writeFields.map x.newValue ++ x.table.indexFields.map x.oldValue
  | .delete => x.table.indexFields.map x.oldValue

def comma : List Atom := [.symbol ',', .space]

def conjunction : List Atom := [.space, .word "AND".toList, .space]

def assignmentAtoms (value : ℕ → Option SqlValue) (i : ℕ) : List Atom :=
  [.ident (x.fieldName i), .space, .symbol '=', .space] ++ valueAtoms (value i)

def tableAtoms : List Atom := [.ident x.name.dbName, .symbol '.', .ident x.name.tableName]

def whereAtoms : List Atom :=
  if x.table.indexFields.isEmpty then []
  else
    [.space, .word "WHERE".toList, .space] ++
      joinWith conjunction (x.table.indexFields.map (x.assignmentAtoms x.oldValue))

def atoms : DmlKind → List Atom
  | .insert =>
      [.word "INSERT".toList, .space, .word "INTO".toList, .space] ++ x.tableAtoms ++
        [.space, .symbol '('] ++ joinWith comma (x.writeFields.map fun i => [.ident (x.fieldName i)]) ++
        [.symbol ')', .space, .word "VALUES".toList, .space, .symbol '('] ++
        joinWith comma (x.writeFields.map fun i => valueAtoms (x.newValue i)) ++ [.symbol ')']
  | .update =>
      [.word "UPDATE".toList, .space] ++ x.tableAtoms ++ [.space, .word "SET".toList, .space] ++
        joinWith comma (x.writeFields.map (x.assignmentAtoms x.newValue)) ++ x.whereAtoms
  | .delete =>
      [.word "DELETE".toList, .space, .word "FROM".toList, .space] ++ x.tableAtoms ++ x.whereAtoms

variable {x}

lemma filterMap_atoms (kind : DmlKind) : (x.atoms kind).filterMap Atom.token = x.skeleton kind := by
  have hassign : ∀ value, (fun i => (x.assignmentAtoms value i).filterMap Atom.token) =
      x.assignmentTokens value := by
    intro value
    funext i
    rw [assignmentAtoms, List.filterMap_append, filterMap_valueAtoms]
    rfl
  have hwhere : x.whereAtoms.filterMap Atom.token = x.whereTokens := by
    rw [whereAtoms, whereTokens]
    split
    · rfl
    · rw [List.filterMap_append, filterMap_joinWith, List.map_map]
      simp only [Function.comp_def, hassign]
      rfl
  cases kind with
  | insert =>
      simp only [atoms, skeleton, List.filterMap_append, filterMap_joinWith, List.map_map,
        Function.comp_def, filterMap_valueAtoms]
      rfl
  | update =>
      simp only [atoms, skeleton, List.filterMap_append, filterMap_joinWith, List.map_map,
        Function.comp_def, hassign, hwhere]
      rfl
  | delete =>
      simp only [atoms, skeleton, List.filterMap_append, hwhere]
      rfl

lemma appendTableName_eq (query : Text) :
    x.appendTableName query = query ++ textOf x.tableAtoms := by
  simp [appendTableName, appendQuotedIdentifier, tableAtoms, Atom.text]

lemma appendAssignment_eq {value : ℕ → Option SqlValue} {i : ℕ}
    (hv : (original (value i)).isSome) (query : Text) :
    x.appendAssignment value query i = query ++ textOf (x.assignmentAtoms value i) := by
  rw [appendAssignment, appendFieldValueToSql_eq hv]
  simp [appendQuotedIdentifier, assignmentAtoms, Atom.text]

/-- A printed list of assignments is the text of its atoms. -/
lemma appendAssignments_eq (x : DmlConvertor) {value : ℕ → Option SqlValue} {fields : List ℕ}
    (hv : ∀ i ∈ fields, (original (value i)).isSome) (hne : fields ≠ []) (sep : List Atom)
    (query : Text) :
    cutEnd (textOf sep).length (appendEach (textOf sep) (x.appendAssignment value) query fields) =
      query ++ textOf (joinWith sep (fields.map (x.assignmentAtoms value))) := by
  rw [cutEnd_appendEach (fun q i hi => appendAssignment_eq (hv i hi) q) query hne,
    textOf_joinWith, List.map_map]
  rfl

lemma generateWhereClause_eq (hv : ∀ i ∈ x.table.indexFields, (original (x.oldValue i)).isSome)
    (query : Text) {kind : DmlKind} (hkind : kind ≠ .insert) :
    x.generateWhereClause query kind = query ++ textOf x.whereAtoms := by
  have hclause : x.generateWhereClause query kind =
      if x.table.indexFields.isEmpty then query
      else cutEnd 5 (appendEach " AND ".toList (x.appendAssignment x.oldValue)
        (query ++ " WHERE ".toList) x.table.indexFields) := by
    cases kind with
    | insert => exact absurd rfl hkind
    | update | delete => rfl
  rw [hclause, whereAtoms]
  split
  · simp
  case isFalse hne =>
      have h := appendAssignments_eq x hv (by simpa using hne) conjunction
        (query ++ " WHERE ".toList)
      rw [textOf_append, ← List.append_assoc]
      exact h

lemma appendColumns_eq (hne : x.writeFields ≠ []) (query : Text) :
    cutEnd 2 (appendEach ", ".toList (fun q i => appendQuotedIdentifier q (x.fieldName i)) query
        x.writeFields) =
      query ++ textOf (joinWith comma (x.writeFields.map fun i => [.ident (x.fieldName i)])) := by
  rw [textOf_joinWith, List.map_map]
  exact cutEnd_appendEach (fun q i _ => by simp [appendQuotedIdentifier, Atom.text]) query hne

lemma appendValues_eq (hne : x.writeFields ≠ [])
    (hv : ∀ i ∈ x.writeFields, (original (x.newValue i)).isSome) (query : Text) :
    cutEnd 2 (appendEach ", ".toList (fun q i => appendFieldValueToSql q (x.newValue i)) query
        x.writeFields) =
      query ++ textOf (joinWith comma (x.writeFields.map fun i => valueAtoms (x.newValue i))) := by
  rw [textOf_joinWith, List.map_map]
  exact cutEnd_appendEach (fun q i hi => appendFieldValueToSql_eq (hv i hi) q) query hne

/-- The text of a convertor is the text of its atoms. -/
lemma translate_eq_textOf {kind : DmlKind} (hws : kind ≠ .delete → x.writeFields ≠ [])
    (hv : ∀ v ∈ x.values kind, (original v).isSome) : x.translate kind = textOf (x.atoms kind) := by
  cases kind with
  | insert =>
      have hne := hws (by decide)
      have hif : x.writeFields.isEmpty = false := by simpa using hne
      have hval : ∀ i ∈ x.writeFields, (original (x.newValue i)).isSome :=
        fun i hi => hv _ (List.mem_map_of_mem hi)
      simp only [translate, generateWhereClause, generateFieldsAndValues, generatePrefix, hif,
        appendTableName_eq, appendColumns_eq hne, appendValues_eq hne hval, Bool.false_eq_true,
        if_false, atoms, textOf_append, List.nil_append, List.append_assoc]
      rfl
  | update =>
      have hne := hws (by decide)
      have hnew : ∀ i ∈ x.writeFields, (original (x.newValue i)).isSome :=
        fun i hi => hv _ (List.mem_append_left _ (List.mem_map_of_mem hi))
      have hold : ∀ i ∈ x.table.indexFields, (original (x.oldValue i)).isSome :=
        fun i hi => hv _ (List.mem_append_right _ (List.mem_map_of_mem hi))
      have hset := appendAssignments_eq x hnew hne comma
      rw [translate, generateWhereClause_eq hold _ (by decide), generateFieldsAndValues]
      simp only [generatePrefix, appendTableName_eq, atoms, textOf_append, List.nil_append]
      exact congrArg (· ++ textOf x.whereAtoms) (hset _)
  | delete =>
      have hold : ∀ i ∈ x.table.indexFields, (original (x.oldValue i)).isSome :=
        fun i hi => hv _ (List.mem_map_of_mem hi)
      rw [translate, generateWhereClause_eq hold _ (by decide), generateFieldsAndValues]
      simp only [generatePrefix, appendTableName_eq, atoms, textOf_append, List.nil_append]
      rfl

/-! ### No atom runs into the next one -/

lemma valid_keywords : ∀ w ∈ ["INSERT", "INTO", "VALUES", "UPDATE", "SET", "DELETE", "FROM",
    "WHERE", "AND"], (Atom.word w.toList).Valid := by
  have hcheck : ∀ w ∈ ["INSERT", "INTO", "VALUES", "UPDATE", "SET", "DELETE", "FROM", "WHERE",
      "AND"], w.toList ≠ [] ∧ (w.toList.all fun c => c.isAlpha || decide (c = '_')) = true := by
    decide
  exact fun w hw => valid_word (hcheck w hw).1 (hcheck w hw).2

lemma fits_comma (h : Option Char) : Fits comma h :=
  fits_symbol (by decide) (by decide) (fits_space trivial)

lemma fits_conjunction (h : Option Char) : Fits conjunction h :=
  fits_space (fits_word (valid_keywords _ (by simp)) rfl (by decide) (fits_space trivial))

lemma fits_assignment (value : ℕ → Option SqlValue) (i : ℕ) {h : Option Char} (hend : Ends h) :
    Fits (x.assignmentAtoms value i) h :=
  fits_ident rfl (by decide)
    (fits_space (fits_symbol (by decide) (by decide) (fits_space (fits_valueAtoms _ hend))))

lemma fits_assignments {sep : List Atom} {c : Char} (hsep : ∀ h, Fits sep h)
    (hhead : (textOf sep).head? = some c) (hc : isWordChar c = false)
    (value : ℕ → Option SqlValue) (fields : List ℕ) {h : Option Char} (hend : Ends h) :
    Fits (joinWith sep (fields.map (x.assignmentAtoms value))) h := by
  refine fits_joinWith hsep hhead fun y hy => ?_
  obtain ⟨i, -, rfl⟩ := List.mem_map.1 hy
  exact ⟨fits_assignment value i (by rintro _ ⟨⟩; exact hc), fits_assignment value i hend⟩

lemma fits_whereAtoms : Fits x.whereAtoms none := by
  rw [whereAtoms]
  split
  · trivial
  · exact fits_space (fits_word (valid_keywords _ (by simp)) rfl (by decide) (fits_space
      (fits_assignments fits_conjunction rfl (by decide) _ _ (by rintro _ ⟨⟩))))

/-- What comes before the WHERE clause is followed by a space or by nothing. -/
lemma head_whereAtoms :
    (textOf x.whereAtoms).head?.or none = none ∨ (textOf x.whereAtoms).head?.or none = some ' ' := by
  rw [whereAtoms]
  split
  · exact Or.inl rfl
  · exact Or.inr rfl

lemma ends_whereAtoms : Ends ((textOf x.whereAtoms).head?.or none) := by
  rcases head_whereAtoms (x := x) with h | h <;> rw [h]
  · rintro _ ⟨⟩
  · rintro _ ⟨⟩
    decide

lemma fits_atoms (kind : DmlKind) : Fits (x.atoms kind) none := by
  have hkey := valid_keywords
  cases kind with
  | insert =>
      simp only [atoms, tableAtoms, List.cons_append, List.nil_append, List.append_assoc]
      refine fits_word (hkey _ (by simp)) rfl (by decide) (fits_space ?_)
      refine fits_word (hkey _ (by simp)) rfl (by decide) (fits_space ?_)
      refine fits_ident rfl (by decide) (fits_symbol (by decide) (by decide) ?_)
      refine fits_ident rfl (by decide) (fits_space (fits_symbol (by decide) (by decide) ?_))
      refine fits_append.2 ⟨fits_joinWith fits_comma rfl fun y hy => ?_, ?_⟩
      · obtain ⟨i, -, rfl⟩ := List.mem_map.1 hy
        exact ⟨⟨trivial, (by decide : some ',' ≠ some dquote), trivial⟩,
          ⟨trivial, (by decide : some ')' ≠ some dquote), trivial⟩⟩
      refine fits_symbol (by decide) (by decide) (fits_space ?_)
      refine fits_word (hkey _ (by simp)) rfl (by decide) (fits_space ?_)
      refine fits_symbol (by decide) (by decide) (fits_append.2 ⟨?_, ?_⟩)
      · refine fits_joinWith fits_comma rfl fun y hy => ?_
        obtain ⟨i, -, rfl⟩ := List.mem_map.1 hy
        exact ⟨fits_valueAtoms _ (by rintro _ ⟨⟩; decide), fits_valueAtoms _ (by rintro _ ⟨⟩; decide)⟩
      · exact fits_symbol (by decide) (by decide) trivial
  | update =>
      simp only [atoms, tableAtoms, List.cons_append, List.nil_append]
      refine fits_word (hkey _ (by simp)) rfl (by decide) (fits_space ?_)
      refine fits_ident rfl (by decide) (fits_symbol (by decide) (by decide) ?_)
      refine fits_ident rfl (by decide) (fits_space ?_)
      refine fits_word (hkey _ (by simp)) rfl (by decide) (fits_space (fits_append.2 ⟨?_, ?_⟩))
      · exact fits_assignments fits_comma rfl (by decide) _ _ ends_whereAtoms
      · exact fits_whereAtoms
  | delete =>
      simp only [atoms, tableAtoms, List.cons_append, List.nil_append]
      refine fits_word (hkey _ (by simp)) rfl (by decide) (fits_space ?_)
      refine fits_word (hkey _ (by simp)) rfl (by decide) (fits_space ?_)
      refine fits_ident rfl (by decide) (fits_symbol (by decide) (by decide) ?_)
      refine ⟨trivial, ?_, fits_whereAtoms⟩
      rcases head_whereAtoms (x := x) with h | h <;> rw [h]
      · exact Option.some_ne_none dquote ∘ Eq.symm
      · exact (by decide : some ' ' ≠ some dquote)

/-- The text of a statement with a non-empty write set, whose values are NULL, integers or byte
strings, is tokenized into the intended statement, its values decode to what was encoded, and
the rewriting of backticks leaves it unchanged. -/
theorem translate_round_trip (x : DmlConvertor) (kind : DmlKind)
    (hws : kind ≠ .delete → x.writeFields ≠ [])
    (hv : ∀ v ∈ x.values kind, (original v).isSome) :
    tokenize (x.translate kind) = x.skeleton kind ∧
      (∀ v ∈ x.values kind, decodeValue (valueTokens v) = original v) ∧
      backticksToDoubleQuotes (x.translate kind) = x.translate kind := by
  have hfits := fits_atoms (x := x) kind
  rw [translate_eq_textOf hws hv]
  refine ⟨?_, fun v hmem => decodeValue_valueTokens (hv v hmem), backticks_textOf hfits⟩
  rw [tokenize_textOf hfits, filterMap_atoms]

/-- An UPDATE of a table with a key and one more column, whose names have quotes and comment
marks in them. -/
def hostileNames : DmlConvertor where
  table := TableDef.keyed 1
  fieldName i := if i = 0 then "k\"#--".toList else "a`b /*".toList
  name := ⟨"d\"".toList, "t'".toList⟩
  writeSet _ := true
  record0 i := ⟨false, if i = 0 then .integer 0 (-5) else .varchar [39, 92, 34]⟩
  oldRow _ := ⟨false, .integer 4 7⟩

theorem translate_round_trip_of_hostileNames :
    tokenize (hostileNames.translate .update) = hostileNames.skeleton .update ∧
      (∀ v ∈ hostileNames.values .update, decodeValue (valueTokens v) = original v) ∧
      backticksToDoubleQuotes (hostileNames.translate .update) =
        hostileNames.translate .update :=
  translate_round_trip hostileNames .update (fun _ => by decide) (by decide)

end DmlConvertor

end DuckdbEngine
