/-
Blocks of ids and who owns them.

A system that hands ids out keeps them apart when every id has at most one owner.
The map `owner : α → Option ω` is the bookkeeping of such a proof and no part of the
system: `Owns owner w A` says that the ids of `A` are all with `w`, so that what two
owners have is disjoint (`Owns.disjoint`), and `give` hands a set of ids over.  An
owner keeps what it has when the ids given away were free or somebody else's.

A block of consecutive numbers is recognised by counting: distinct numbers that fill
the width of their span are all of the span (`mem_of_full_span`).
-/
import Mathlib

namespace IdBlocks

variable {α ω : Type*} {owner : α → Option ω} {w w' u : ω} {A B : Set α}

/-- Every id of `A` belongs to `w`. -/
def Owns (owner : α → Option ω) (w : ω) (A : Set α) : Prop := ∀ v ∈ A, owner v = some w

/-- No id of `A` belongs to anybody. -/
def Free (owner : α → Option ω) (A : Set α) : Prop := ∀ v ∈ A, owner v = none

open Classical in
/-- The ids of `A` are handed to `w`. -/
noncomputable def give (owner : α → Option ω) (w : ω) (A : Set α) : α → Option ω :=
  fun v => if v ∈ A then some w else owner v

@[simp] lemma owns_empty : Owns owner w ∅ := by simp [Owns]

lemma Owns.mono (h : Owns owner w A) (hBA : B ⊆ A) : Owns owner w B :=
  fun v hv => h v (hBA hv)

lemma Owns.disjoint (hA : Owns owner w A) (hB : Owns owner w' B) (hne : w ≠ w') :
    Disjoint A B := by
  rw [Set.disjoint_left]
  intro v hvA hvB
  exact hne (Option.some.inj ((hA v hvA).symm.trans (hB v hvB)))

lemma Owns.disjoint_of_free (hA : Owns owner w A) (hB : Free owner B) : Disjoint A B := by
  rw [Set.disjoint_left]
  intro v hvA hvB
  simpa [hB v hvB] using hA v hvA

lemma owns_give : Owns (give owner w A) w A := fun v hv => by simp [give, hv]

/-- Who shares nothing with the ids handed over keeps what it has. -/
lemma Owns.give (hB : Owns owner w' B) (hAB : Disjoint A B) :
    Owns (give owner w A) w' B := by
  intro v hv
  have hvA : v ∉ A := fun hvA => Set.disjoint_left.1 hAB hvA hv
  simpa [IdBlocks.give, hvA] using hB v hv

/-- Ids of one owner change hands: the other owners keep theirs. -/
lemma Owns.give_of_owns (hB : Owns owner w' B) (hA : Owns owner u A) (hne : u ≠ w') :
    Owns (IdBlocks.give owner w A) w' B :=
  hB.give (hA.disjoint hB hne)

/-- Free ids are handed out: everybody keeps what it has. -/
lemma Owns.give_of_free (hB : Owns owner w' B) (hA : Free owner A) :
    Owns (IdBlocks.give owner w A) w' B :=
  hB.give (hB.disjoint_of_free hA).symm

/-- The receiver has the new ids besides its own. -/
lemma Owns.give_self (hB : Owns owner w B) : Owns (IdBlocks.give owner w A) w (A ∪ B) := by
  intro v hv
  by_cases hvA : v ∈ A
  · simp [IdBlocks.give, hvA]
  · simpa [IdBlocks.give, hvA] using hB v (hv.resolve_left hvA)

lemma Free.give (hB : Free owner B) (hAB : Disjoint A B) : Free (give owner w A) B := by
  intro v hv
  have hvA : v ∉ A := fun hvA => Set.disjoint_left.1 hAB hvA hv
  simpa [IdBlocks.give, hvA] using hB v hv

lemma Free.give_of_owns (hB : Free owner B) (hA : Owns owner u A) :
    Free (IdBlocks.give owner w A) B :=
  hB.give (hA.disjoint_of_free hB)

lemma Free.mono (h : Free owner A) (hBA : B ⊆ A) : Free owner B := fun v hv => h v (hBA hv)

/-- Distinct numbers between `lo` and `hi`, as many as there are, are all of them. -/
lemma mem_of_full_span {l : List ℕ} {lo hi : ℕ} (hnodup : l.Nodup)
    (hlo : ∀ v ∈ l, lo ≤ v) (hhi : ∀ v ∈ l, v ≤ hi) (hlen : l.length = hi - lo + 1)
    {v : ℕ} (hv : lo ≤ v) (hv' : v ≤ hi) : v ∈ l := by
  have hsub : l.toFinset ⊆ Finset.Icc lo hi := by
    intro w hw
    rw [List.mem_toFinset] at hw
    exact Finset.mem_Icc.2 ⟨hlo w hw, hhi w hw⟩
  have hcard : (Finset.Icc lo hi).card ≤ l.toFinset.card := by
    rw [Nat.card_Icc, List.toFinset_card_of_nodup hnodup, hlen]
    omega
  have heq : l.toFinset = Finset.Icc lo hi := Finset.eq_of_subset_of_card_le hsub hcard
  rw [← List.mem_toFinset, heq]
  exact Finset.mem_Icc.2 ⟨hv, hv'⟩

end IdBlocks
