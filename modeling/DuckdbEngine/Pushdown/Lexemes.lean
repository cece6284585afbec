/-
The rewriting of a query as a rewriting of its lexemes.

A query is a sequence of words, of single other characters, and of regions: the strings, quoted
identifiers and comments.  What a round of a pass does to the text of a query, it does to its
lexemes, as one of a few rules that replace lexemes within a context (`Rule`): words and
blanks are exchanged, and an index hint takes the regions between its parentheses along.

The rules keep the regions apart from the code, and no pattern of a pass comes together from
the two sides of a replacement, if the query is `Calm`: the regions end where
`find_in_code` ends them, the keywords of the passes are words of their own with nothing
between the parentheses of a call that could be mistaken for its end.  A rule makes a calm
sequence into a calm sequence (`Calm.swap`).
-/
import DuckdbEngine.Pushdown.Forward
import DuckdbEngine.Sql.Tokens

namespace DuckdbEngine.Pushdown

open Sql Lexing

/-! ### Lexemes -/

/-- A word, a single character, or a region; `hinted` says that the region stands between the
parentheses of an index hint. -/
inductive Lexeme where
  | word (w : Text)
  | mark (c : Char)
  | region (hinted : Bool) (r : Text)
deriving DecidableEq

namespace Lexeme

def text : Lexeme → Text
  | word w => w
  | mark c => [c]
  | region _ r => r

def isWord : Lexeme → Bool
  | word _ => true
  | _ => false

/-- A region that is to be kept. -/
def kept : Lexeme → Option Text
  | region false r => some r
  | _ => none

end Lexeme

def spell (ls : List Lexeme) : Text := ls.flatMap Lexeme.text

def keptOf (ls : List Lexeme) : List Text := ls.filterMap Lexeme.kept

@[simp] lemma spell_nil : spell [] = [] := rfl

@[simp] lemma spell_cons (l : Lexeme) (ls : List Lexeme) : spell (l :: ls) = l.text ++ spell ls :=
  rfl

@[simp] lemma spell_append (ls ks : List Lexeme) : spell (ls ++ ks) = spell ls ++ spell ks :=
  List.flatMap_append

@[simp] lemma keptOf_append (ls ks : List Lexeme) : keptOf (ls ++ ks) = keptOf ls ++ keptOf ks :=
  List.filterMap_append

@[simp] lemma keptOf_word (w : Text) (ls : List Lexeme) : keptOf (.word w :: ls) = keptOf ls := rfl

@[simp] lemma keptOf_mark (c : Char) (ls : List Lexeme) : keptOf (.mark c :: ls) = keptOf ls := rfl

/-! ### Keywords -/

/-- The word ends in one of the keywords, up to case. -/
def endsIn (keywords : List String) (word : Text) : Bool :=
  keywords.any fun keyword => keyword.toList.isSuffixOf (word.map Char.toUpper)

/-- The keyword is part of the word, up to case. -/
def isPartOf (keyword : String) (word : Text) : Bool :=
  (word.map Char.toUpper).tails.any fun t => keyword.toList.isPrefixOf t

def timeWords : List String := ["CURRENT_TIME", "CURRENT_DATE", "CURRENT_TIMESTAMP"]

def hintWords : List String :=
  ["HIGH_PRIORITY", "SQL_NO_CACHE", "SQL_CACHE", "SQL_BUFFER_RESULT", "SQL_SMALL_RESULT",
    "SQL_BIG_RESULT", "SQL_CALC_FOUND_ROWS"]

def indexWords : List String := ["FORCE", "USE", "IGNORE"]

/-- The words that the passes look for. -/
def passWords : List String :=
  ["BY", "WITH", "CONVERT", "STRAIGHT_JOIN", "JOIN", "REGEXP", "RLIKE"] ++ timeWords ++ hintWords ++
    indexWords

lemma isOneOf_iff {keywords : List String} {w : Text} :
    isOneOf keywords w = true ↔ ∃ k ∈ keywords, w.map Char.toUpper = k.toList := by
  simp [isOneOf]

lemma endsIn_of_isOneOf {keywords : List String} {w : Text} (h : isOneOf keywords w = true) :
    endsIn keywords w = true := by
  obtain ⟨k, hk, hw⟩ := isOneOf_iff.1 h
  refine List.any_eq_true.2 ⟨k, hk, ?_⟩
  rw [hw]
  exact List.isSuffixOf_iff_suffix.2 List.suffix_rfl

lemma isOneOf_mono {ks ks' : List String} (hks : ks ⊆ ks') {w : Text} (h : isOneOf ks w = true) :
    isOneOf ks' w = true := by
  obtain ⟨k, hk, hw⟩ := isOneOf_iff.1 h
  exact isOneOf_iff.2 ⟨k, hks hk, hw⟩

lemma isOneOf_congr {w w' : Text} (h : w'.map Char.toUpper = w.map Char.toUpper)
    (keywords : List String) : isOneOf keywords w' = isOneOf keywords w := by
  rw [isOneOf, isOneOf, h]

lemma endsIn_congr {w w' : Text} (h : w'.map Char.toUpper = w.map Char.toUpper)
    (keywords : List String) : endsIn keywords w' = endsIn keywords w := by
  rw [endsIn, endsIn, h]

/-- A word that is one of some keywords ends in no keyword that none of them ends in. -/
lemma endsIn_eq_false {ks keywords : List String} {w : Text} (hw : isOneOf ks w = true)
    (h : (ks.all fun k => !keywords.any fun keyword => keyword.toList.isSuffixOf k.toList) = true) :
    endsIn keywords w = false := by
  obtain ⟨k, hk, hkw⟩ := isOneOf_iff.1 hw
  have hnone := List.all_eq_true.1 h k hk
  rw [endsIn, hkw]
  simpa using hnone

lemma isOneOf_eq_false {ks keywords : List String} {w : Text} (hw : isOneOf ks w = true)
    (h : (ks.all fun k => !keywords.any fun keyword => k.toList = keyword.toList) = true) :
    isOneOf keywords w = false := by
  obtain ⟨k, hk, hkw⟩ := isOneOf_iff.1 hw
  have hnone := List.all_eq_true.1 h k hk
  rw [isOneOf, hkw]
  simpa using hnone

/-! ### Calm queries -/

def isQuote (c : Char) : Bool := c = squote || c = dquote || c = backtick

/-- A region begins with a quote or as a comment. -/
def opensRegion (c : Char) : Bool := !isPlain c || c = '#'

/-- Words are runs of their characters, and regions begin as such. -/
def Lexeme.WellFormed : Lexeme → Prop
  | word w => w ≠ [] ∧ ∀ c ∈ w, isWordChar c = true
  | mark c => isWordChar c = false ∧ isQuote c = false
  | region _ r => r.head?.any opensRegion = true

/-- Two neighbours stay apart: words do not run into each other, and `find_in_code` sees no
comment and no doubled quote between them. -/
def Adjoins : Option Lexeme → Lexeme → Prop
  | none, _ => True
  | some (.word _), l => l.isWord = false
  | some (.mark c), l => (c = '-' → l.text.head? ≠ some '-') ∧ (c = '/' → l.text.head? ≠ some '*')
  | some (.region _ r), l => r.head?.any isQuote = true → l.text.head? ≠ r.head?

/-- What the passes look for. -/
def searched : List Text := "GROUP BY ".toList :: passes.map Pass.pattern

/-- `find_in_code` takes all of the region for code, but nothing is found there. -/
def isMute (r : Text) : Bool :=
  r.tails.all fun t => codeSkip t = 0 && searched.all fun pattern => !ciStartsWith pattern t

/-- `find_in_code` ends the region where it ends: behind its last character, at the end of its line,
or at the end of the query.  A comment with `#` is code for it, up to the end of its line. -/
def Delimited (r : Text) (rest : List Lexeme) : Prop :=
  codeSkip (r ++ [' ', ' ']) = r.length ∨
    (r.getLast? = some '\n' ∧ (codeSkip (r ++ [' ', ' ']) + 1 = r.length ∨ isMute r = true)) ∨
    (rest = [] ∧ (codeSkip r = r.length ∨ isMute r = true))

/-- What stands before a word that is taken out: nothing, or a character that goes with any
other. -/
def isFree : Option Lexeme → Bool
  | none => true
  | some (.mark c) => c ≠ '-' && c ≠ '/'
  | some _ => false

/-- What may stand between the parentheses of a call that becomes a keyword. -/
def isArgument : Lexeme → Bool
  | .word w => !isOneOf passWords w
  | .mark c => c ≠ '('
  | .region _ _ => false

/-- What may stand between the parentheses of an index hint. -/
def isName : Lexeme → Bool
  | .region hinted r => hinted && ')' ∉ r
  | l => isArgument l

/-- What follows the closing parenthesis, if only the given lexemes stand before it. -/
def behindCall (ok : Lexeme → Bool) : List Lexeme → Option (List Lexeme)
  | [] => none
  | l :: ls => if l = .mark ')' then some ls else if ok l then behindCall ok ls else none

/-- What replaces a call does not become a longer word or a call again. -/
def callEnds (rest : List Lexeme) : Bool :=
  rest.head?.all fun l => !l.isWord && l ≠ .mark '('

def callFollows (rest : List Lexeme) : Bool := rest.head? = some (.mark '(')

/-- `INDEX` with a parenthesis. -/
def startsIndex : List Lexeme → Bool
  | .word w :: rest => isOneOf ["INDEX"] w && callFollows rest
  | _ => false

/-- The keywords of the passes are whole words.  A hint has a free place before it, also one that
comes into being when a comma behind it is replaced, and a call has arguments that end with the
first parenthesis. -/
@[mk_iff]
structure QuietWord (prev : Option Lexeme) (w : Text) (rest : List Lexeme) : Prop where
  hint : endsIn hintWords w = true →
    (rest.head? = some (.mark ' ') ∨ rest.head? = some (.mark ',')) →
    isOneOf hintWords w = true ∧ isFree prev = true
  straight : isPartOf "STRAIGHT_JOIN" w = true →
    isOneOf ["STRAIGHT_JOIN"] w = true ∧ isFree prev = true
  time : endsIn timeWords w = true → callFollows rest = true →
    isOneOf timeWords w = true ∧ (behindCall isArgument rest.tail).any callEnds = true
  index : startsIndex (.word w :: rest) = true → prev = none ∨ prev = some (.mark ' ')

/-- `INDEX` with a parenthesis is part of an index hint, with names between the parentheses. -/
def QuietIndex (prev : Option Lexeme) (l : Lexeme) (rest : List Lexeme) : Prop :=
  startsIndex rest.tail = true →
    rest.head? = some (.mark ' ') ∧ l.isWord = true ∧ isOneOf indexWords l.text = true ∧
      isFree prev = true ∧ (behindCall isName (rest.drop 3)).isSome = true

/-- The lexeme is one that the passes cannot mistake, between those before and behind it. -/
structure Quiet (prev : Option Lexeme) (l : Lexeme) (rest : List Lexeme) : Prop where
  formed : l.WellFormed
  meets : Adjoins prev l
  closed : ∀ hinted r, l = .region hinted r → Delimited r rest
  word : ∀ w, l = .word w → QuietWord prev w rest
  index : QuietIndex prev l rest

def Calm : Option Lexeme → List Lexeme → Prop
  | _, [] => True
  | prev, l :: ls => Quiet prev l ls ∧ Calm (some l) ls

/-! ### Calm queries can be told -/

section decidable

variable (prev : Option Lexeme) (rest : List Lexeme)

instance (l : Lexeme) : Decidable l.WellFormed :=
  match l with
  | .word w => decidable_of_iff (w ≠ [] ∧ w.all isWordChar = true) (by simp [Lexeme.WellFormed])
  | .mark c => inferInstanceAs (Decidable (isWordChar c = false ∧ isQuote c = false))
  | .region _ r => inferInstanceAs (Decidable (r.head?.any opensRegion = true))

instance (l : Lexeme) : Decidable (Adjoins prev l) :=
  match prev with
  | none => inferInstanceAs (Decidable True)
  | some (.word _) => inferInstanceAs (Decidable (l.isWord = false))
  | some (.mark c) => inferInstanceAs (Decidable ((c = '-' → l.text.head? ≠ some '-') ∧
      (c = '/' → l.text.head? ≠ some '*')))
  | some (.region _ r) =>
      inferInstanceAs (Decidable (r.head?.any isQuote = true → l.text.head? ≠ r.head?))

instance (r : Text) : Decidable (Delimited r rest) := inferInstanceAs (Decidable (_ ∨ _ ∨ _))

instance (w : Text) : Decidable (QuietWord prev w rest) := decidable_of_iff' _ (quietWord_iff _ _ _)

instance (l : Lexeme) : Decidable (QuietIndex prev l rest) := inferInstanceAs (Decidable (_ → _))

instance (l : Lexeme) : Decidable (Quiet prev l rest) :=
  match l with
  | .word w => decidable_of_iff ((Lexeme.word w).WellFormed ∧ Adjoins prev (.word w) ∧
      QuietWord prev w rest ∧ QuietIndex prev (.word w) rest)
      ⟨fun h => ⟨h.1, h.2.1, by simp, by simpa using h.2.2.1, h.2.2.2⟩,
        fun h => ⟨h.formed, h.meets, h.word w rfl, h.index⟩⟩
  | .mark c => decidable_of_iff ((Lexeme.mark c).WellFormed ∧ Adjoins prev (.mark c) ∧
      QuietIndex prev (.mark c) rest)
      ⟨fun h => ⟨h.1, h.2.1, by simp, by simp, h.2.2⟩, fun h => ⟨h.formed, h.meets, h.index⟩⟩
  | .region hinted r => decidable_of_iff ((Lexeme.region hinted r).WellFormed ∧
      Adjoins prev (.region hinted r) ∧ Delimited r rest ∧ QuietIndex prev (.region hinted r) rest)
      ⟨fun h => ⟨h.1, h.2.1, by simpa using h.2.2.1, by simp, h.2.2.2⟩,
        fun h => ⟨h.formed, h.meets, h.closed hinted r rfl, h.index⟩⟩

instance decidableCalm : ∀ (prev : Option Lexeme) (ls : List Lexeme), Decidable (Calm prev ls)
  | _, [] => inferInstanceAs (Decidable True)
  | prev, l :: ls =>
      have := decidableCalm (some l) ls
      inferInstanceAs (Decidable (Quiet prev l ls ∧ Calm (some l) ls))

end decidable

/-! ### The rules -/

def Lexeme.isBlank : Lexeme → Bool
  | mark c => Pushdown.isBlank c
  | _ => false

/-- `Rule m n rest`: in front of `rest` the lexemes `m` are replaced by `n`.  There is a rule for
each part of a text that a round replaces. -/
inductive Rule : List Lexeme → List Lexeme → List Lexeme → Prop
  | group {w w' b : Text} {rest : List Lexeme} (hform : (Lexeme.word w').WellFormed)
      (hw : w'.map Char.toUpper = w.map Char.toUpper) (hb : isOneOf ["BY"] b = true) :
      Rule [.word w, .mark ' ', .word b, .mark ' ']
        [.word w', .mark ' ', .word "BY".toList, .mark ' ', .word "ROLLUP".toList, .mark '('] rest
  | rollup {w r : Text} {rest : List Lexeme} (hw : isOneOf ["WITH"] w = true)
      (hr : isOneOf ["ROLLUP"] r = true) :
      Rule [.mark ' ', .word w, .mark ' ', .word r] [.mark ')'] rest
  | cast {w : Text} {rest : List Lexeme} (hw : isOneOf ["CONVERT"] w = true) :
      Rule [.word w] [.word "CAST".toList] (.mark '(' :: rest)
  | type {blanks rest : List Lexeme} (hblank : ∀ l ∈ blanks, l.isBlank = true) :
      Rule (.mark ',' :: blanks) [.mark ' ', .word "AS".toList, .mark ' '] rest
  | trim {blanks rest : List Lexeme} (hne : blanks ≠ [])
      (hblank : ∀ l ∈ blanks, l.isBlank = true) : Rule blanks [] (.mark ')' :: rest)
  | time {w w' : Text} {args rest : List Lexeme} (hw : isOneOf timeWords w = true)
      (hform : (Lexeme.word w').WellFormed) (hw' : isOneOf timeWords w' = true)
      (hargs : ∀ l ∈ args, isArgument l = true ∧ l ≠ .mark ')') (hrest : callEnds rest = true) :
      Rule (.word w :: .mark '(' :: (args ++ [.mark ')'])) [.word w'] rest
  | straightJoin {w : Text} {rest : List Lexeme} (hw : isOneOf ["STRAIGHT_JOIN"] w = true) :
      Rule [.word w] [.word "JOIN".toList] rest
  | straightHint {w : Text} {gap rest : List Lexeme} (hw : isOneOf ["STRAIGHT_JOIN"] w = true)
      (hgap : gap = [] ∨ gap = [.mark ' ']) : Rule (.word w :: gap) [] rest
  | join {w : Text} {rest : List Lexeme} (hw : isOneOf ["JOIN"] w = true) :
      Rule [.word w] [.word "CROSS".toList, .mark ' ', .word "JOIN".toList] (.mark ' ' :: rest)
  | regexp {w : Text} {rest : List Lexeme} (hw : isOneOf ["REGEXP", "RLIKE"] w = true) :
      Rule [.word w] [.mark '~'] (.mark ' ' :: rest)
  | notRegexp {v w : Text} {rest : List Lexeme} (hw : isOneOf ["REGEXP", "RLIKE"] w = true) :
      Rule [.word v, .mark ' ', .word w] [.mark '!', .mark '~'] (.mark ' ' :: rest)
  | selectHint {w : Text} {rest : List Lexeme} (hw : isOneOf hintWords w = true) :
      Rule [.word w, .mark ' '] [] rest
  | indexHint {w i : Text} {names blanks rest : List Lexeme} (hw : isOneOf indexWords w = true)
      (hi : isOneOf ["INDEX"] i = true) (hnames : ∀ l ∈ names, isName l = true)
      (hblank : ∀ l ∈ blanks, l = .mark ' ') :
      Rule (.word w :: .mark ' ' :: .word i :: .mark '(' :: (names ++ .mark ')' :: blanks)) [] rest

/-! ### What follows a lexeme -/

variable {prev : Option Lexeme}

/-- The last lexeme, or the one before the list. -/
def lastOr : Option Lexeme → List Lexeme → Option Lexeme
  | prev, [] => prev
  | _, l :: ls => lastOr (some l) ls

lemma Calm.append_right {ls ks : List Lexeme} (h : Calm prev (ls ++ ks)) :
    Calm (lastOr prev ls) ks := by
  induction ls generalizing prev with
  | nil => exact h
  | cons l ls ih => exact ih h.2

lemma adjoins_word_iff {w : Text} (hw : (Lexeme.word w).WellFormed) :
    Adjoins prev (.word w) ↔ ∀ v, prev ≠ some (.word v) := by
  obtain ⟨c, w, rfl⟩ := List.exists_cons_of_ne_nil hw.1
  have hc := hw.2 c List.mem_cons_self
  rcases prev with _ | v | d | ⟨_, r⟩
  · simp [Adjoins]
  · simp [Adjoins, Lexeme.isWord]
  · refine iff_of_true ⟨fun _ hhead => ?_, fun _ hhead => ?_⟩ (by simp)
    all_goals
      cases hhead
      exact absurd hc (by decide)
  · refine iff_of_true (fun hquote hhead => ?_) (by simp)
    rw [← hhead] at hquote
    replace hquote : isQuote c = true := hquote
    simp only [isQuote, Bool.or_eq_true, decide_eq_true_eq] at hquote
    rcases hquote with (rfl | rfl) | rfl <;> exact absurd hc (by decide)

lemma adjoins_mark {c : Char} (hminus : c ≠ '-') (hstar : c ≠ '*') (hquote : isQuote c = false)
    (prev : Option Lexeme) : Adjoins prev (.mark c) := by
  rcases prev with _ | v | d | ⟨_, r⟩
  · trivial
  · rfl
  · exact ⟨fun _ => by simpa [Lexeme.text] using hminus,
      fun _ => by simpa [Lexeme.text] using hstar⟩
  · intro h hhead
    rw [← hhead] at h
    exact absurd h (by simp [Lexeme.text, hquote])

/-- A free place goes with any lexeme. -/
lemma adjoins_of_isFree (h : isFree prev = true) (l : Lexeme) :
    Adjoins prev l := by
  rcases prev with _ | v | d | ⟨_, r⟩
  · trivial
  · cases h
  · simp only [isFree, Bool.and_eq_true, decide_eq_true_eq] at h
    exact ⟨fun hd => absurd hd h.1, fun hd => absurd hd h.2⟩
  · cases h

lemma QuietWord.quiet {w : Text} {rest : List Lexeme} (h : QuietWord prev w rest)
    (hform : (Lexeme.word w).WellFormed) (hprev : ∀ v, prev ≠ some (.word v))
    (hrest : startsIndex rest.tail = false) : Quiet prev (.word w) rest := by
  refine ⟨hform, (adjoins_word_iff hform).2 hprev, fun _ _ hr => ?_, fun v hv => ?_, fun hi => ?_⟩
  · cases hr
  · cases hv
    exact h
  · exact absurd (hrest.symm.trans hi) (by decide)

/-- Before a blank only the letters of a word matter, not their case. -/
lemma QuietWord.of_upper {w w' : Text} {ls ks : List Lexeme}
    (h : QuietWord prev w (.mark ' ' :: ls)) (hw : w'.map Char.toUpper = w.map Char.toUpper) :
    QuietWord prev w' (.mark ' ' :: ks) := by
  obtain ⟨hhint, hstraight, -, -⟩ := h
  rw [← endsIn_congr hw] at hhint
  rw [isPartOf, ← hw] at hstraight
  rw [← isOneOf_congr hw] at hhint hstraight
  refine ⟨fun h _ => hhint h (Or.inl rfl), hstraight, fun _ h => ?_, fun h => ?_⟩
  · cases h
  · rw [startsIndex, Bool.and_eq_true] at h
    cases h.2

lemma quietWord_time {w : Text} {rest : List Lexeme} (hw : isOneOf timeWords w = true)
    (hcall : callFollows rest = false) : QuietWord prev w rest := by
  refine ⟨fun h => ?_, fun h => ?_, fun _ h => ?_, fun h => ?_⟩
  · rw [endsIn_eq_false hw (by decide)] at h
    cases h
  · obtain ⟨k, hk, hkw⟩ := isOneOf_iff.1 hw
    have hno : ∀ k ∈ timeWords,
        (k.toList.tails.any fun t => "STRAIGHT_JOIN".toList.isPrefixOf t) = false := by decide
    rw [isPartOf, hkw, hno k hk] at h
    cases h
  · exact absurd (hcall.symm.trans h) (by decide)
  · rw [startsIndex, isOneOf_eq_false hw (by decide)] at h
    cases h

/-- A word that is put in is no keyword of a pass that goes by itself. -/
lemma quiet_word {rest : List Lexeme} (k : String)
    (hk : k ∈ ["ROLLUP", "BY", "CAST", "AS", "CROSS", "JOIN"]) (hprev : ∀ v, prev ≠ some (.word v))
    (hrest : startsIndex rest.tail = false) : Quiet prev (.word k.toList) rest := by
  have hall : ∀ k ∈ ["ROLLUP", "BY", "CAST", "AS", "CROSS", "JOIN"],
      (k.toList.isEmpty = false ∧ k.toList.all isWordChar = true) ∧
      (endsIn hintWords k.toList = false ∧ endsIn timeWords k.toList = false) ∧
      isPartOf "STRAIGHT_JOIN" k.toList = false ∧
      isOneOf ["INDEX"] k.toList = false := by decide
  obtain ⟨⟨hne, hchars⟩, ⟨hhint, htime⟩, hstraight, hindex⟩ := hall k hk
  have hform : (Lexeme.word k.toList).WellFormed :=
    ⟨fun hnil => by simp [hnil] at hne, List.all_eq_true.1 hchars⟩
  refine QuietWord.quiet ⟨fun h => ?_, fun h => ?_, fun h => ?_, fun h => ?_⟩ hform hprev hrest
  · exact absurd (hhint.symm.trans h) (by decide)
  · exact absurd (hstraight.symm.trans h) (by decide)
  · exact absurd (htime.symm.trans h) (by decide)
  · rw [startsIndex, hindex] at h
    cases h

lemma quiet_mark {c : Char} {rest : List Lexeme}
    (hc : c ∈ [' ', '(', ')', '!', '~']) (hrest : startsIndex rest.tail = false) :
    Quiet prev (.mark c) rest := by
  have hall : ([' ', '(', ')', '!', '~'].all fun c =>
      (isWordChar c = false ∧ isQuote c = false) ∧ c ≠ '-' ∧ c ≠ '*') = true := by decide
  obtain ⟨hform, hminus, hstar⟩ := of_decide_eq_true (List.all_eq_true.1 hall c hc)
  refine ⟨hform, adjoins_mark hminus hstar hform.2 prev, fun _ _ h => ?_, fun _ h => ?_,
    fun h => ?_⟩
  · cases h
  · cases h
  · exact absurd (hrest.symm.trans h) (by decide)

/-- What stands before matters to the next lexeme only. -/
lemma Calm.of_prev {prev' : Option Lexeme} {ls : List Lexeme} (h : Calm prev ls)
    (hindex : startsIndex ls = false)
    (hprev : isFree prev' = true ∨ ∀ l ∈ ls.head?, l.isWord = false ∧ Adjoins prev' l) :
    Calm prev' ls := by
  cases ls with
  | nil => trivial
  | cons l ls =>
      obtain ⟨⟨hform, -, hclosed, hword, hahead⟩, hrest⟩ := h
      refine ⟨⟨hform, ?_, hclosed, fun w hw => ?_, fun hstart => ?_⟩, hrest⟩
      · exact hprev.elim (fun hfree => adjoins_of_isFree hfree l) fun hl => (hl l rfl).2
      · subst hw
        obtain ⟨hhint, hstraight, htime, -⟩ := hword w rfl
        have hfree := hprev.resolve_right fun hl => Bool.noConfusion (hl _ rfl).1
        refine ⟨fun h₁ h₂ => ⟨(hhint h₁ h₂).1, hfree⟩, fun h => ⟨(hstraight h).1, hfree⟩, htime, ?_⟩
        intro h
        rw [hindex] at h
        cases h
      · obtain ⟨hhead, hisWord, hw, -, hnames⟩ := hahead hstart
        refine ⟨hhead, hisWord, hw, hprev.resolve_right fun hl => ?_, hnames⟩
        rw [(hl l rfl).1] at hisWord
        cases hisWord

/-! ### A rule in its context -/

section rule

variable {m n rest : List Lexeme}

lemma Rule.ne_nil (h : Rule m n rest) : m ≠ [] := by
  cases h with
  | trim hne _ => exact hne
  | _ => simp

/-- Behind a word a rule puts no parenthesis, and a blank only where a comma or a blank was. -/
lemma Rule.head_mark (h : Rule m n rest) {w : Text} (hcalm : Calm (some (.word w)) (m ++ rest)) :
    callFollows (n ++ rest) = false ∧
      ((n ++ rest).head? = some (.mark ' ') ∨ (n ++ rest).head? = some (.mark ',') →
        (m ++ rest).head? = some (.mark ' ') ∨ (m ++ rest).head? = some (.mark ',')) := by
  cases h with
  | rollup _ _ => exact ⟨rfl, by simp⟩
  | type _ => exact ⟨rfl, by simp⟩
  | trim _ _ => exact ⟨rfl, by simp⟩
  | _ => cases hcalm.1.meets

lemma Rule.callEnds (h : Rule m n rest) (hends : callEnds (m ++ rest) = true) :
    callEnds (n ++ rest) = true := by
  cases h with
  | rollup _ _ => rfl
  | type _ => rfl
  | trim _ _ => rfl
  | _ => cases hends

lemma behindCall_blanks {ok : Lexeme → Bool} (hok : ∀ c, ok (.mark c) = decide (c ≠ '('))
    {blanks ls : List Lexeme} (hblank : ∀ l ∈ blanks, l.isBlank = true) :
    behindCall ok (blanks ++ ls) = behindCall ok ls := by
  induction blanks with
  | nil => rfl
  | cons l blanks ih =>
      rw [List.forall_mem_cons] at hblank
      cases l with
      | word _ => cases hblank.1
      | region _ _ => cases hblank.1
      | mark c =>
          have hc : c = ' ' ∨ c = '\t' := by
            simpa [Lexeme.isBlank, Pushdown.isBlank] using hblank.1
          rw [List.cons_append, behindCall, hok, ih hblank.2]
          rcases hc with rfl | rfl <;> simp

/-- No call ends behind a word that a pass looks for. -/
lemma behindCall_passWord {ok : Lexeme → Bool} (hword : ∀ w, ok (.word w) = !isOneOf passWords w)
    {ls ks : List Lexeme} {w : Text} (hw : isOneOf passWords w = true)
    (hls : Lexeme.mark ')' ∉ ls) : behindCall ok (ls ++ .word w :: ks) = none := by
  induction ls with
  | nil => simp [behindCall, hword, hw]
  | cons l ls ih =>
      rw [List.mem_cons, not_or] at hls
      rw [List.cons_append, behindCall, if_neg (Ne.symm hls.1), ih hls.2, ite_self]

/-- A rule that applies before a call ends replaces blanks and commas only. -/
lemma Rule.behindCall {ok : Lexeme → Bool} (hmark : ∀ c, ok (.mark c) = decide (c ≠ '('))
    (hword : ∀ w, ok (.word w) = !isOneOf passWords w) (h : Rule m n rest) {ls : List Lexeme}
    (hcall : behindCall ok (m ++ rest) = some ls) : behindCall ok (n ++ rest) = some ls := by
  -- with a word of a pass among the lexemes the call does not end
  have hstop : ∀ {ks : List String} {w : Text} (us : List Lexeme) {vs : List Lexeme},
      isOneOf ks w = true → ks ⊆ passWords → Lexeme.mark ')' ∉ us →
      m ++ rest = us ++ .word w :: vs → False := by
    intro ks w us vs hw hks hus heq
    rw [heq, behindCall_passWord hword (isOneOf_mono hks hw) hus] at hcall
    cases hcall
  cases h with
  | type hblank =>
      rw [List.cons_append, Pushdown.behindCall, if_neg (by decide), hmark, if_pos (by decide),
        behindCall_blanks hmark hblank] at hcall
      simpa [Pushdown.behindCall, hmark, hword, isOneOf, passWords, timeWords, hintWords,
        indexWords] using hcall
  | trim _ hblank => rwa [behindCall_blanks hmark hblank] at hcall
  | @group w _ _ _ _ _ hb => exact (hstop [.word w, .mark ' '] hb (by decide) (by simp) rfl).elim
  | rollup hw _ => exact (hstop [.mark ' '] hw (by decide) (by simp) rfl).elim
  | @notRegexp v _ _ hw => exact (hstop [.word v, .mark ' '] hw (by decide) (by simp) rfl).elim
  | cast hw | time hw | straightJoin hw | straightHint hw | join hw | regexp hw | selectHint hw
  | indexHint hw => exact (hstop [] hw (by decide) (by simp) rfl).elim

/-- A word that begins an index hint. -/
def Lexeme.isIndexWord (l : Lexeme) : Bool := l.isWord && isOneOf indexWords l.text

lemma Quiet.not_index {l : Lexeme} (h : Quiet prev l rest)
    (hl : l.isIndexWord = false) : startsIndex rest.tail = false := by
  by_contra hindex
  obtain ⟨-, hword, hw, -⟩ := h.index (Bool.not_eq_false _ ▸ hindex)
  rw [Lexeme.isIndexWord, hword, hw] at hl
  cases hl

/-- Behind a lexeme other than a blank no index hint goes on. -/
lemma Calm.not_index_one {l : Lexeme} (h : Calm prev (l :: rest))
    (hblank : l ≠ .mark ' ') (hl : l.isIndexWord = false) :
    startsIndex rest = false ∧ startsIndex rest.tail = false := by
  refine ⟨?_, h.1.not_index hl⟩
  cases rest with
  | nil => rfl
  | cons k rest =>
      cases k with
      | mark _ => rfl
      | region _ _ => rfl
      | word w =>
          by_contra hindex
          have hprev := (h.2.1.word w rfl).index (Bool.not_eq_false _ ▸ hindex)
          rcases hprev with hprev | hprev <;> cases hprev
          exact hblank rfl

lemma Calm.not_index_two {k l : Lexeme} (h : Calm prev (k :: l :: rest))
    (hk : k.isIndexWord = false) (hl : l.isIndexWord = false) :
    startsIndex rest = false ∧ startsIndex rest.tail = false :=
  ⟨h.1.not_index hk, h.2.1.not_index hl⟩

lemma Calm.not_index_blanks {l : Lexeme} {blanks : List Lexeme}
    (h : Calm prev (l :: (blanks ++ rest))) (hl : l.isIndexWord = false) (hne : l ≠ .mark ' ')
    (hblank : ∀ b ∈ blanks, b.isWord = false) :
    startsIndex rest = false ∧ startsIndex rest.tail = false := by
  have hmark : ∀ b ∈ blanks, b.isIndexWord = false := fun b hb => by
    rw [Lexeme.isIndexWord, hblank b hb]
    rfl
  rcases List.eq_nil_or_concat blanks with rfl | ⟨bs, b, rfl⟩
  · exact h.not_index_one hne hl
  · rcases List.eq_nil_or_concat bs with rfl | ⟨bs, b', rfl⟩
    · exact h.not_index_two hl (hmark b (by simp))
    · rw [show l :: ((bs.concat b').concat b ++ rest) = (l :: bs) ++ b' :: b :: rest by simp] at h
      exact h.append_right.not_index_two (hmark b' (by simp)) (hmark b (by simp))

lemma isIndexWord_eq_false {ks : List String} {w : Text} (hw : isOneOf ks w = true)
    (h : (ks.all fun k => !indexWords.any fun keyword => k.toList = keyword.toList) = true) :
    (Lexeme.word w).isIndexWord = false := isOneOf_eq_false hw h

lemma Lexeme.isWord_of_isBlank {l : Lexeme} (h : l.isBlank = true) : l.isWord = false := by
  cases l with
  | mark _ => rfl
  | word _ => cases h
  | region _ _ => cases h

lemma Rule.not_index (h : Rule m n rest) (hcalm : Calm prev (m ++ rest)) :
    startsIndex rest = false ∧ startsIndex rest.tail = false := by
  cases h with
  | group _ _ hb => exact hcalm.2.2.not_index_two (isIndexWord_eq_false hb (by decide)) rfl
  | rollup _ hr => exact hcalm.2.2.2.not_index_one (by simp) (isIndexWord_eq_false hr (by decide))
  | cast hw | straightJoin hw | join hw | regexp hw =>
      exact hcalm.not_index_one (by simp) (isIndexWord_eq_false hw (by decide))
  | notRegexp hw =>
      exact hcalm.2.2.not_index_one (by simp) (isIndexWord_eq_false hw (by decide))
  | type hblank =>
      exact hcalm.not_index_blanks rfl (by decide)
        fun b hb => Lexeme.isWord_of_isBlank (hblank b hb)
  | trim hne hblank =>
      obtain ⟨bs, b, rfl⟩ := (List.eq_nil_or_concat m).resolve_left hne
      rw [List.concat_eq_append, List.append_assoc] at hcalm
      have hb := Lexeme.isWord_of_isBlank (hblank b (by simp))
      refine ⟨rfl, hcalm.append_right.1.not_index ?_⟩
      rw [Lexeme.isIndexWord, hb]
      rfl
  | @time w w' args rest =>
      rw [show (.word w :: .mark '(' :: (args ++ [.mark ')'])) ++ rest =
        (.word w :: .mark '(' :: args) ++ .mark ')' :: rest by simp] at hcalm
      exact hcalm.append_right.not_index_one (by decide) rfl
  | straightHint hw hgap =>
      have hindex := isIndexWord_eq_false hw (by decide)
      rcases hgap with rfl | rfl
      · exact hcalm.not_index_one (by simp) hindex
      · exact hcalm.not_index_two hindex rfl
  | selectHint hw => exact hcalm.not_index_two (isIndexWord_eq_false hw (by decide)) rfl
  | @indexHint w i names blanks rest _ _ _ hblank =>
      rw [show (.word w :: .mark ' ' :: .word i :: .mark '(' :: (names ++ .mark ')' :: blanks)) ++
        rest = (.word w :: .mark ' ' :: .word i :: .mark '(' :: names) ++
          .mark ')' :: (blanks ++ rest) by simp] at hcalm
      refine hcalm.append_right.not_index_blanks rfl (by decide) fun b hb => ?_
      rw [hblank b hb]
      rfl

/-- A rule puts no index hint together. -/
lemma Rule.not_index_new (h : Rule m n rest)
    (hcalm : Calm prev (m ++ rest)) :
    startsIndex (n ++ rest) = false ∧ startsIndex (n ++ rest).tail = false := by
  obtain ⟨hone, htwo⟩ := h.not_index hcalm
  cases h with
  | straightHint _ _ | selectHint _ | indexHint _ _ _ _ => exact ⟨hone, htwo⟩
  | trim _ _ => exact ⟨rfl, htwo⟩
  | rollup _ _ | regexp _ => exact ⟨rfl, hone⟩
  | notRegexp _ | type _ => exact ⟨rfl, rfl⟩
  | @time w w' args rest _ _ hw' =>
      refine ⟨?_, hone⟩
      rw [List.singleton_append, startsIndex, isOneOf_eq_false hw' (by decide)]
      rfl
  | @group w w' b rest =>
      refine ⟨?_, rfl⟩
      rw [List.cons_append, startsIndex, Bool.and_eq_false_iff]
      exact Or.inr rfl
  | cast _ | join _ => exact ⟨rfl, rfl⟩
  | straightJoin _ => exact ⟨rfl, hone⟩

lemma Rule.behindCall_append {ok : Lexeme → Bool} (hmark : ∀ c, ok (.mark c) = decide (c ≠ '('))
    (hword : ∀ w, ok (.word w) = !isOneOf passWords w) (h : Rule m n rest) {ls ks : List Lexeme}
    (hcall : Pushdown.behindCall ok (ls ++ (m ++ rest)) = some ks) :
    ∃ ks', Pushdown.behindCall ok (ls ++ (n ++ rest)) = some ks' ∧
      (Pushdown.callEnds ks = true → Pushdown.callEnds ks' = true) := by
  induction ls with
  | nil => exact ⟨ks, h.behindCall hmark hword hcall, id⟩
  | cons l ls ih =>
      rw [List.cons_append, Pushdown.behindCall] at hcall ⊢
      split_ifs at hcall ⊢ with hclose hok
      · cases hcall
        refine ⟨_, rfl, fun hends => ?_⟩
        cases ls with
        | nil => exact h.callEnds hends
        | cons _ _ => exact hends
      · exact ih hcall

/-- A lexeme stays quiet when a rule is applied behind it. -/
lemma Quiet.swap {l : Lexeme} {ls : List Lexeme} (h : Rule m n rest)
    (hl : Quiet prev l (ls ++ (m ++ rest))) (hcalm : Calm (some l) (ls ++ (m ++ rest))) :
    Quiet prev l (ls ++ (n ++ rest)) := by
  obtain ⟨hform, hmeets, hclosed, hword, hindex⟩ := hl
  obtain ⟨hone, htwo⟩ := h.not_index_new hcalm.append_right
  refine ⟨hform, hmeets, fun hinted r hr => ?_, fun w hw => ?_, fun hstart => ?_⟩
  · rcases hclosed hinted r hr with hskip | hline | ⟨hnil, -⟩
    · exact Or.inl hskip
    · exact Or.inr (Or.inl hline)
    · exact absurd (List.append_eq_nil_iff.1 (List.append_eq_nil_iff.1 hnil).2).1 h.ne_nil
  · subst hw
    obtain ⟨hhint, hstraight, htime, hprev⟩ := hword w rfl
    cases ls with
    | nil =>
        obtain ⟨hcall, hblank⟩ := h.head_mark hcalm
        refine ⟨fun hend hnext => hhint hend (hblank hnext), hstraight, fun _ hfollows => ?_, ?_⟩
        · exact absurd (hcall.symm.trans hfollows) (by decide)
        · intro hstart
          rw [startsIndex, List.nil_append, hcall, Bool.and_false] at hstart
          cases hstart
    | cons k ls =>
        refine ⟨hhint, hstraight, fun hend hfollows => ?_, hprev⟩
        obtain ⟨hwhole, hcall⟩ := htime hend hfollows
        obtain ⟨ks, hks, hends⟩ := Option.any_eq_true _ _ |>.1 hcall
        obtain ⟨ks', hks', hends'⟩ := h.behindCall_append (fun _ => rfl) (fun _ => rfl) hks
        exact ⟨hwhole, (Option.any_eq_true _ _).2 ⟨ks', hks', hends' hends⟩⟩
  · rcases ls with _ | ⟨k, _ | ⟨i, _ | ⟨p, ls⟩⟩⟩
    · exact absurd (htwo.symm.trans hstart) (by decide)
    · exact absurd (hone.symm.trans hstart) (by decide)
    · -- the parenthesis behind INDEX is not new
      exfalso
      cases i with
      | mark _ => cases hstart
      | region _ _ => cases hstart
      | word i =>
          have hcall := (h.head_mark hcalm.2.2).1
          replace hstart : (isOneOf ["INDEX"] i && callFollows (n ++ rest)) = true := hstart
          rw [hcall, Bool.and_false] at hstart
          cases hstart
    · have hsame : startsIndex (i :: p :: (ls ++ (m ++ rest))) = true := by
        cases i <;> exact hstart
      obtain ⟨hblank, hisWord, hw, hfree, hnames⟩ := hindex hsame
      obtain ⟨ks, hks⟩ := Option.isSome_iff_exists.1 hnames
      replace hks : behindCall isName (ls ++ (m ++ rest)) = some ks := hks
      obtain ⟨ks', hks', -⟩ := h.behindCall_append (fun _ => rfl) (fun _ => rfl) hks
      exact ⟨hblank, hisWord, hw, hfree, Option.isSome_iff_exists.2 ⟨ks', hks'⟩⟩

/-- The lexemes that a rule puts in are quiet, and so is what follows. -/
lemma Rule.calm (h : Rule m n rest) (hcalm : Calm prev (m ++ rest)) :
    Calm prev (n ++ rest) := by
  obtain ⟨hone, htwo⟩ := h.not_index hcalm
  have hprev : ∀ {w : Text} {ls : List Lexeme}, Calm prev (.word w :: ls) →
      ∀ v, prev ≠ some (.word v) := fun hc => (adjoins_word_iff hc.1.formed).1 hc.1.meets
  cases h with
  | @group w _ _ _ hform hw _ =>
      exact ⟨((hcalm.1.word w rfl).of_upper hw).quiet hform (hprev hcalm) rfl,
        quiet_mark (by simp) rfl, quiet_word "BY" (by simp) (by simp) rfl, quiet_mark (by simp) rfl,
        quiet_word "ROLLUP" (by simp) (by simp) hone, quiet_mark (by simp) htwo,
        hcalm.2.2.2.2.of_prev hone (Or.inl rfl)⟩
  | rollup _ _ =>
      exact ⟨quiet_mark (by simp) htwo, hcalm.2.2.2.2.of_prev hone (Or.inl rfl)⟩
  | cast _ =>
      refine ⟨quiet_word "CAST" (by simp) (hprev hcalm) htwo, hcalm.2.of_prev hone (Or.inr ?_)⟩
      rintro _ ⟨⟩
      exact ⟨rfl, rfl⟩
  | type _ =>
      refine ⟨quiet_mark (by simp) rfl, quiet_word "AS" (by simp) (by simp) hone,
        quiet_mark (by simp) htwo, ?_⟩
      exact hcalm.append_right.of_prev hone (Or.inl rfl)
  | trim _ _ =>
      refine hcalm.append_right.of_prev hone (Or.inr ?_)
      rintro _ ⟨⟩
      exact ⟨rfl, adjoins_mark (by decide) (by decide) (by decide) _⟩
  | @time _ _ _ _ _ hform hw' _ hrest =>
      have hnext : ∀ l ∈ rest.head?, l.isWord = false ∧ l ≠ .mark '(' := fun l hl => by
        rw [Pushdown.callEnds, hl] at hrest
        simpa using hrest
      have hcall : callFollows rest = false := decide_eq_false fun hhead => (hnext _ hhead).2 rfl
      exact ⟨(quietWord_time hw' hcall).quiet hform (hprev hcalm) htwo,
        hcalm.append_right.of_prev hone
          (Or.inr fun l hl => ⟨(hnext l hl).1, (hnext l hl).1⟩)⟩
  | straightJoin _ =>
      refine ⟨quiet_word "JOIN" (by simp) (hprev hcalm) htwo, hcalm.2.of_prev hone (Or.inr ?_)⟩
      intro l hl
      obtain ⟨ls, rfl⟩ := List.head?_eq_some_iff.1 hl
      have hmeets := hcalm.2.1.meets
      exact ⟨hmeets, hmeets⟩
  | @straightHint w gap rest hw _ =>
      obtain ⟨k, hk, hkw⟩ := isOneOf_iff.1 hw
      have hpart : isPartOf "STRAIGHT_JOIN" w = true := by
        rw [isPartOf, hkw, List.mem_singleton.1 hk]
        decide
      have hfree := ((hcalm.1.word w rfl).straight hpart).2
      exact hcalm.append_right.of_prev hone (Or.inl hfree)
  | join _ =>
      refine ⟨quiet_word "CROSS" (by simp) (hprev hcalm) rfl, quiet_mark (by simp) rfl,
        quiet_word "JOIN" (by simp) (by simp) htwo, hcalm.2.of_prev hone (Or.inr ?_)⟩
      rintro _ ⟨⟩
      exact ⟨rfl, rfl⟩
  | regexp _ => exact ⟨quiet_mark (by simp) htwo, hcalm.2.of_prev hone (Or.inl rfl)⟩
  | notRegexp _ =>
      exact ⟨quiet_mark (by simp) rfl, quiet_mark (by simp) htwo,
        hcalm.2.2.2.of_prev hone (Or.inl rfl)⟩
  | @selectHint w rest hw =>
      have hfree := ((hcalm.1.word w rfl).hint (endsIn_of_isOneOf hw) (Or.inl rfl)).2
      exact hcalm.2.2.of_prev hone (Or.inl hfree)
  | @indexHint w i names blanks rest hw hi _ _ =>
      have hstart : startsIndex (.word i :: .mark '(' :: ((names ++ .mark ')' :: blanks) ++ rest)) =
          true := by
        rw [startsIndex, hi]
        rfl
      obtain ⟨-, -, -, hfree, -⟩ := hcalm.1.index hstart
      exact hcalm.append_right.of_prev hone (Or.inl hfree)

/-- **A rule makes a calm sequence into a calm sequence.** -/
theorem Calm.swap {ls : List Lexeme} (h : Rule m n rest)
    (hcalm : Calm prev (ls ++ (m ++ rest))) : Calm prev (ls ++ (n ++ rest)) := by
  induction ls generalizing prev with
  | nil => exact h.calm hcalm
  | cons l ls ih => exact ⟨hcalm.1.swap h hcalm.2, ih hcalm.2⟩

lemma kept_of_isName {l : Lexeme} (h : isName l = true) : l.kept = none := by
  cases l with
  | word _ => rfl
  | mark _ => rfl
  | region hinted r =>
      rw [isName, Bool.and_eq_true] at h
      rw [h.1]
      rfl

lemma kept_of_isBlank {l : Lexeme} (h : l.isBlank = true) : l.kept = none := by
  cases l with
  | mark _ => rfl
  | word _ => cases h
  | region _ _ => cases h

lemma isName_of_isArgument {l : Lexeme} (h : isArgument l = true) : isName l = true := by
  cases l with
  | word _ => exact h
  | mark _ => exact h
  | region _ _ => cases h

/-- No rule takes out a region, other than one in an index hint. -/
lemma Rule.keptOf_eq_nil (h : Rule m n rest) : keptOf m = [] ∧ keptOf n = [] := by
  have hnone : ∀ {ls : List Lexeme}, (∀ l ∈ ls, l.kept = none) → keptOf ls = [] := fun hls =>
    List.filterMap_eq_nil_iff.2 hls
  cases h with
  | type hblank =>
      refine ⟨hnone (List.forall_mem_cons.2 ⟨rfl, fun l hl => ?_⟩), rfl⟩
      exact kept_of_isBlank (hblank l hl)
  | trim _ hblank => exact ⟨hnone fun l hl => kept_of_isBlank (hblank l hl), rfl⟩
  | @time w w' args rest _ _ _ hargs =>
      refine ⟨hnone fun l hl => ?_, rfl⟩
      simp only [List.mem_cons, List.mem_append, List.not_mem_nil, or_false] at hl
      rcases hl with rfl | rfl | hl | rfl
      · rfl
      · rfl
      · exact kept_of_isName (isName_of_isArgument (hargs l hl).1)
      · rfl
  | straightHint _ hgap => rcases hgap with rfl | rfl <;> exact ⟨rfl, rfl⟩
  | @indexHint w i names blanks rest _ _ hnames hblank =>
      refine ⟨hnone fun l hl => ?_, rfl⟩
      simp only [List.mem_cons, List.mem_append] at hl
      rcases hl with rfl | rfl | rfl | rfl | hl | rfl | hl
      · rfl
      · rfl
      · rfl
      · rfl
      · exact kept_of_isName (hnames l hl)
      · rfl
      · rw [hblank l hl]
        rfl
  | _ => exact ⟨rfl, rfl⟩

lemma Rule.keptOf_swap (h : Rule m n rest) (ls : List Lexeme) :
    keptOf (ls ++ (n ++ rest)) = keptOf (ls ++ (m ++ rest)) := by
  obtain ⟨hm, hn⟩ := h.keptOf_eq_nil
  simp only [keptOf_append, hm, hn]

end rule

end DuckdbEngine.Pushdown
