/-
MariaDB's tokens.

Backslashes escape in string literals only.  What stands in an executable comment is code if
the server runs it: the opening `/*!` or `/*M!`, which may name a version, is passed like a
comment, and so is the `*/` that closes it.  Which versions are run depends on the server, so
the openings that it runs are a parameter.  An executable comment that is skipped may hold
another comment.  The parts of a qualified name are identifiers, whatever their words are.
-/
import DuckdbEngine.Sql.Tokens

namespace DuckdbEngine.Sql

open Lexing

/-- A token outside of executable comments, as far as words are told apart from quoted regions and
comments. -/
def mariadbToken (mode : SqlMode) : Lexer Char TokenKind := fun s =>
  match s, mariadbRegion mode s with
  | _, (.comment, n) => (.comment, n)
  | _, (.unterminated, n) => (.unterminated, n)
  | s, (.quoted, n) => (if s.head?.any mode.opensLiteral then .string else .ident, n)
  | [], (.none, _) => (.symbol, 0)
  | c :: s, (.none, _) =>
      if isSpace c then (.space, 1)
      else if isWordChar c then (.word, ((c :: s).takeWhile isWordChar).length)
      else (.symbol, 1)

/-- The opening of an executable comment, with the five or six digits of a version. -/
def opening (s : Text) : Option Text :=
  let n :=
    if "/*!".toList.isPrefixOf s then 3 else if "/*M!".toList.isPrefixOf s then 4 else 0
  let version := ((s.drop n).take 6).takeWhile Char.isDigit
  if n = 0 then none else some (s.take (if 5 ≤ version.length then n + version.length else n))

/-- The number of characters up to the end of a comment that is skipped, one comment inside of it
included. -/
def skippedEnd (inner : Bool) : Text → Option ℕ
  | c :: d :: s =>
      if !inner && c = '/' && d = '*' then (skippedEnd true s).map (· + 2)
      else if c = '*' && d = '/' then
        if inner then (skippedEnd false s).map (· + 2) else some 2
      else (skippedEnd inner (d :: s)).map (· + 1)
  | _ => none

/-- The word before the given text is the qualifier of a name. -/
def qualifies (rest : Text) : Bool := rest.head? = some '.' && rest.tail.head?.any isWordChar

/-- A word right behind the token is the end of a qualified name. -/
def isDot (p : TokenKind × Text) : Bool := p = (.symbol, ['.'])

variable (mode : SqlMode) (runs : Text → Bool)

/-- The first token; `inside` says that an executable comment is being run. -/
def serverToken (inside : Bool) : Lexer Char TokenKind := fun s =>
  if inside && ['*', '/'].isPrefixOf s then (.comment, 2)
  else
    match opening s with
    | none => mariadbToken mode s
    | some o =>
        if runs o then (.comment, o.length)
        else
          match skippedEnd false (s.drop o.length) with
          | some n => (.comment, o.length + n)
          | none => (.unterminated, s.length)

def insideAfter (inside : Bool) (s : Text) : Bool :=
  if inside && ['*', '/'].isPrefixOf s then false else inside || (opening s).any runs

/-- The first tokens, at most `n` of them. -/
def serverTokens : ℕ → Bool → Text → List (TokenKind × Text)
  | 0, _, _ => []
  | _ + 1, _, [] => []
  | n + 1, inside, c :: s =>
      let next := serverToken mode runs inside
      ((next (c :: s)).1, (c :: s).take (next.size (c :: s))) ::
        serverTokens n (insideAfter runs inside (c :: s)) ((c :: s).drop (next.size (c :: s)))

variable {mode runs}

lemma flatten_serverTokens {n : ℕ} {inside : Bool} {s : Text} (h : s.length ≤ n) :
    (serverTokens mode runs n inside s).flatMap Prod.snd = s := by
  induction n generalizing inside s with
  | zero => exact (List.length_eq_zero_iff.1 (Nat.le_zero.1 h)).symm
  | succ n ih =>
      cases s with
      | nil => rfl
      | cons c s =>
          have hlt := length_drop_lt (serverToken mode runs inside) c s
          rw [serverTokens, List.flatMap_cons, ih (hlt.trans (Nat.le_of_succ_le_succ h)),
            List.take_append_drop]

/-- A word is a run of its characters. -/
lemma mariadbToken_word {s : Text} (h : (mariadbToken mode s).1 = .word) :
    (mariadbToken mode).size s = (s.takeWhile isWordChar).length := by
  cases s with
  | nil => cases h
  | cons c s =>
      rcases hM : mariadbRegion mode (c :: s) with ⟨k, m⟩
      cases k with
      | comment | unterminated => simp [mariadbToken, hM] at h
      | quoted =>
          simp only [mariadbToken, hM] at h
          split_ifs at h
      | none =>
          simp only [mariadbToken, hM] at h
          split_ifs at h with hs hw
          simp only [Lexer.size, mariadbToken, hM, hs, hw]
          refine max_eq_right ?_
          rw [List.takeWhile_cons_of_pos hw]
          exact Nat.succ_pos _

/-- Words are the same inside of executable comments. -/
lemma serverToken_word {inside : Bool} {s : Text} (h : (serverToken mode runs inside s).1 = .word) :
    (mariadbToken mode s).1 = .word ∧
      (serverToken mode runs inside).size s = (mariadbToken mode).size s := by
  rw [Lexer.size]
  unfold serverToken at h ⊢
  split_ifs at h ⊢
  cases hopen : opening s with
  | none =>
      rw [hopen] at h
      exact ⟨h, rfl⟩
  | some o =>
      simp only [hopen] at h
      split_ifs at h
      cases hend : skippedEnd false (s.drop o.length) <;> simp [hend] at h

end DuckdbEngine.Sql
