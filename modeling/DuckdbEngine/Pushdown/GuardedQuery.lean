/-
The queries whose strings, quoted identifiers and comments come through the rewriting.

`find_in_code` leaves a region alone if it delimits it the way MariaDB does, but from a
match on the passes go on with raw characters: the first comma of `CONVERT` may be part
of a string.  A query is `Guarded` if neither can do harm: it is calm, and there are no
delimiters in the regions between the parentheses of `CONVERT`.  This is a condition on
the tokens that MariaDB reads in the query.  The passes then rewrite the query lexeme by
lexeme, and its regions come out in their order.
-/
import DuckdbEngine.Pushdown.LexemeLimit
import DuckdbEngine.Pushdown.LexemeRollup
import DuckdbEngine.Pushdown.Unchanged

namespace DuckdbEngine.Pushdown

open Sql Lexing

/-! ### The lexemes of a query -/

/-- The lexemes of a token; everything but words and single characters is a region. -/
def lexemeOf : TokenKind × Text → List Lexeme
  | (.word, w) => [.word w]
  | (.space, s) => s.map .mark
  | (.symbol, s) => s.map .mark
  | (_, r) => [.region false r]

/-- An index hint, up to its opening parenthesis. -/
def startsHint : List Lexeme → Bool
  | .word w :: .mark c :: ls => isOneOf indexWords w && c = ' ' && startsIndex ls
  | _ => false

/-- The regions between the parentheses of an index hint are hinted. -/
def flagHints : Bool → List Lexeme → List Lexeme
  | _, [] => []
  | true, .region _ r :: ls => .region true r :: flagHints true ls
  | true, .mark c :: ls => .mark c :: flagHints (c ≠ ')') ls
  | inHint, l :: ls => l :: flagHints (inHint || startsHint (l :: ls)) ls

/-- The query as MariaDB reads it under the given mode. -/
def lexemes (mode : SqlMode) (sql : Text) : List Lexeme :=
  flagHints false ((pieces (mariadbToken mode) sql).flatMap lexemeOf)

/-- `WITH ROLLUP` is not used, or as whole words, and not together with `CONVERT` and regions that
hold delimiters. -/
def RollupGuarded (ls : List Lexeme) : Prop :=
  Pairs rollupFree ls ∨
    Pairs rollupQuiet ls ∧ (Calls (allowedCall false) ls ∨ ∀ l ∈ ls, l.isTame = true)

instance (ls : List Lexeme) : Decidable (RollupGuarded ls) :=
  inferInstanceAs (Decidable (_ ∨ _ ∧ _))

/-- Nothing in the query is rewritten, or the passes see its words and regions as MariaDB does, and
find no delimiters in the regions between the parentheses of the calls that they rewrite. -/
def Guarded (mode : SqlMode) (sql : Text) : Prop :=
  (∀ i, ¬ Rewritable sql i) ∨
    Calm none (lexemes mode sql) ∧ Calls quietCall (lexemes mode sql) ∧
      RollupGuarded (lexemes mode sql)

lemma spell_lexemeOf (p : TokenKind × Text) : spell (lexemeOf p) = p.2 := by
  have hmarks : ∀ s : Text, spell (s.map Lexeme.mark) = s := fun s => by
    induction s with
    | nil => rfl
    | cons c s ih => rw [List.map_cons, spell_cons, ih]; rfl
  rcases p with ⟨_ | _ | _ | _ | _ | _ | _ | _, s⟩ <;> simp [lexemeOf, hmarks, Lexeme.text]

lemma spell_flagHints (inHint : Bool) (ls : List Lexeme) :
    spell (flagHints inHint ls) = spell ls := by
  induction ls generalizing inHint with
  | nil => cases inHint <;> rfl
  | cons l ls ih => rcases inHint with _ | _ <;> rcases l with _ | _ | _ <;>
      simp [flagHints, ih, Lexeme.text]

lemma spell_lexemes (mode : SqlMode) (sql : Text) : spell (lexemes mode sql) = sql := by
  have hpieces : ∀ ps : List (TokenKind × Text),
      spell (ps.flatMap lexemeOf) = ps.flatMap Prod.snd := fun ps => by
      induction ps with
      | nil => rfl
      | cons p ps ih => rw [List.flatMap_cons, spell_append, ih, spell_lexemeOf, List.flatMap_cons]
  rw [lexemes, spell_flagHints, hpieces, flatten_pieces]

/-! ### The passes on calm queries -/

/-- The passes between `CONVERT` and `LIMIT`. -/
def middlePasses : List Pass :=
  timeKeywords.map timePass ++ [straightJoinPass, joinPass] ++ regexpKeywords.map regexpPass ++
    selectHints.map selectHintPass ++ indexHints.map indexHintPass

lemma passes_eq : passes = rollupPass :: convertPass :: (middlePasses ++ [limitPass]) := by
  simp [passes, laterPasses, middlePasses]

lemma middlePasses_follow : ∀ p ∈ middlePasses, p.Follows (Calm none) := by
  intro p hp
  simp only [middlePasses, List.mem_append, List.mem_map, List.mem_cons, List.not_mem_nil, or_false]
    at hp
  rcases hp with (((⟨kw, hkw, rfl⟩ | rfl | rfl) | ⟨kw, hkw, rfl⟩) | ⟨hint, hhint, rfl⟩) |
    ⟨hint, hhint, rfl⟩
  · exact timePass_follows hkw
  · exact straightJoinPass_follows
  · exact joinPass_follows
  · exact regexpPass_follows hkw
  · exact selectHintPass_follows hhint
  · exact indexHintPass_follows hhint

lemma pass_pattern_ne_nil {p : Pass} (hp : p ∈ passes) : p.pattern ≠ [] :=
  (searched_line _ (List.mem_cons_of_mem _ (List.mem_map_of_mem hp))).1

lemma follows_passes {ps : List Pass} {I : List Lexeme → Prop}
    (h : ∀ p ∈ ps, p.Follows I ∧ p.pattern ≠ []) {ls : List Lexeme} (hls : I ls) :
    ∃ ls', ps.foldl (fun sql p => p.run sql) (spell ls) = spell ls' ∧ I ls' ∧
      keptOf ls' = keptOf ls := by
  induction ps generalizing ls with
  | nil => exact ⟨ls, rfl, hls, rfl⟩
  | cons p ps ih =>
      rw [List.forall_mem_cons] at h
      obtain ⟨ls₁, hrun, hls₁, hkept₁⟩ := h.1.1.run h.1.2 hls
      obtain ⟨ls₂, hfold, hls₂, hkept₂⟩ := ih h.2 hls₁
      exact ⟨ls₂, by rw [List.foldl_cons, hrun, hfold], hls₂, hkept₂.trans hkept₁⟩

/-- The first pass leaves a query for the second one. -/
lemma rollup_guarded {ls : List Lexeme} (hcalm : Calm none ls) (hcalls : Calls quietCall ls)
    (h : RollupGuarded ls) :
    ∃ ls', rollupPass.run (spell ls) = spell ls' ∧ Convertible ls' ∧ keptOf ls' = keptOf ls := by
  rcases h with hfree | ⟨hpairs, hconvert⟩
  · obtain ⟨ls', hrun, hls', hkept⟩ :=
      rollupPass_follows_of_free.run (by decide) ⟨⟨hcalm, hcalls⟩, hfree⟩
    exact ⟨ls', hrun, hls'.1, hkept⟩
  · have hroll : Rollable ls := by
      refine ⟨hcalm, hpairs, ?_⟩
      rcases hconvert with hnone | htame
      · exact ⟨false, hnone, by simp⟩
      · refine ⟨true, Calls.mono hcalls fun us w ks _ hw => ?_, fun _ => htame⟩
        rw [quietCall] at hw
        rw [allowedCall]
        split_ifs at hw ⊢
        · exact Bool.or_true _
        · exact hw
    obtain ⟨ls', hrun, hls', hkept⟩ := rollupPass_follows.run (by decide) hroll
    exact ⟨ls', hrun, hls'.convertible, hkept⟩

/-- A guarded query, with a string that holds delimiters and a name in an index hint. -/
def guardedQuery : Text :=
  "SELECT CONVERT(a, CHAR), 'x,y(' FROM t USE INDEX(`i`) WHERE b = 'CONVERT(1,2)' LIMIT 2,5".toList

end DuckdbEngine.Pushdown
