/-
Ordered lists of items with unique keys.

A `KeyedList key` is a list of items no two of which have the same key, kept in
an order of the caller's choice: what a tree map from keys to items is, when the
items know their own keys.  The uniqueness of the keys is a field, so that a
lookup is characterised by membership alone (`find_eq_some`) and every operation
below is described by the items it leaves in the list.
-/
import Mathlib.Data.List.Sort

/-- A list of items with pairwise distinct keys. -/
structure KeyedList {α κ : Type*} (key : α → κ) where
  /-- The items, in iteration order. -/
  items : List α
  nodup : (items.map key).Nodup

namespace KeyedList

variable {α κ : Type*} {key : α → κ}

/-- The list without items. -/
def empty : KeyedList key := ⟨[], List.nodup_nil⟩

@[simp] lemma items_empty : (empty : KeyedList key).items = [] := rfl

@[ext] lemma ext {l l' : KeyedList key} (h : l.items = l'.items) : l = l' := by
  cases l
  cases l'
  cases h
  rfl

lemma eq_empty_iff {l : KeyedList key} : l = empty ↔ l.items = [] :=
  ⟨fun h => by rw [h, items_empty], fun h => ext h⟩

lemma eq_of_key_eq (l : KeyedList key) {a b : α} (ha : a ∈ l.items) (hb : b ∈ l.items)
    (h : key a = key b) : a = b :=
  List.inj_on_of_nodup_map l.nodup ha hb h

variable [DecidableEq κ]

/-- The item with the key `k`. -/
def find (l : KeyedList key) (k : κ) : Option α := l.items.find? fun a => key a = k

lemma find_eq_some {l : KeyedList key} {k : κ} {a : α} :
    l.find k = some a ↔ a ∈ l.items ∧ key a = k := by
  constructor
  · intro h
    exact ⟨List.mem_of_find?_eq_some h, by simpa using List.find?_some h⟩
  · rintro ⟨ha, rfl⟩
    obtain ⟨b, hb⟩ : ∃ b, l.find (key a) = some b :=
      Option.isSome_iff_exists.1 (List.find?_isSome.2 ⟨a, ha, by simp⟩)
    have hkey : key b = key a := by simpa using List.find?_some hb
    rw [hb, l.eq_of_key_eq (List.mem_of_find?_eq_some hb) ha hkey]

lemma find_eq_none {l : KeyedList key} {k : κ} :
    l.find k = none ↔ ∀ a ∈ l.items, key a ≠ k := by
  simp [find]

@[simp] lemma find_empty (k : κ) : (empty : KeyedList key).find k = none := rfl

lemma find_of_mem {l : KeyedList key} {a : α} (ha : a ∈ l.items) : l.find (key a) = some a :=
  find_eq_some.2 ⟨ha, rfl⟩

/-- What is made of the items one by one is found under the key of its item. -/
lemma filter_filterMap_key {β : Type*} {g : α → Option β} {keyOf : β → κ} (l : KeyedList key)
    (hg : ∀ b ∈ l.items, ∀ x ∈ g b, keyOf x = key b) {a : α} (ha : a ∈ l.items) :
    (l.items.filterMap g).filter (fun x => keyOf x = key a) = (g a).toList := by
  obtain ⟨items, hnodup⟩ := l
  simp only at hg ha ⊢
  induction items with
  | nil => exact absurd ha List.not_mem_nil
  | cons b items ih =>
      rw [List.map_cons, List.nodup_cons] at hnodup
      rw [List.forall_mem_cons] at hg
      rcases List.mem_cons.1 ha with rfl | ha
      · have hrest : (items.filterMap g).filter (fun x => keyOf x = key a) = [] := by
          refine List.filter_eq_nil_iff.2 fun x hx hkey => hnodup.1 ?_
          obtain ⟨c, hc, hcx⟩ := List.mem_filterMap.1 hx
          rw [← of_decide_eq_true hkey, hg.2 c hc x hcx]
          exact List.mem_map_of_mem hc
        cases hga : g a with
        | none =>
            rw [List.filterMap_cons_none hga]
            exact hrest
        | some x =>
            have hkey : decide (keyOf x = key a) = true := decide_eq_true (hg.1 x hga)
            rw [List.filterMap_cons_some hga, List.filter_cons, hkey, if_pos rfl, hrest]
            rfl
      · have hne : key b ≠ key a := fun heq => hnodup.1 (heq ▸ List.mem_map_of_mem ha)
        cases hgb : g b with
        | none =>
            rw [List.filterMap_cons_none hgb]
            exact ih hnodup.2 hg.2 ha
        | some x =>
            have hkey : decide (keyOf x = key a) = false :=
              decide_eq_false (hg.1 x hgb ▸ hne)
            rw [List.filterMap_cons_some hgb, List.filter_cons, hkey, if_neg (by decide)]
            exact ih hnodup.2 hg.2 ha

/-! ### Storing and removing an item -/

section Put

variable (r : α → α → Prop) [DecidableRel r]

/-- The items after `a` is stored among `as`: it takes the place of the item with
its key, or its place in the order `r` when there is none. -/
def putItems (key : α → κ) (as : List α) (a : α) : List α :=
  if key a ∈ as.map key then as.map fun b => if key b = key a then a else b
  else as.orderedInsert r a

lemma nodup_putItems {as : List α} (h : (as.map key).Nodup) (a : α) :
    ((putItems r key as a).map key).Nodup := by
  by_cases ha : key a ∈ as.map key
  · have hkeys : (as.map fun b => if key b = key a then a else b).map key = as.map key := by
      rw [List.map_map]
      refine List.map_congr_left fun b _ => ?_
      by_cases hb : key b = key a <;> simp [hb]
    rw [putItems, if_pos ha, hkeys]
    exact h
  · have hperm := (as.perm_orderedInsert r a).map key
    rw [putItems, if_neg ha, hperm.nodup_iff, List.map_cons, List.nodup_cons]
    exact ⟨ha, h⟩

lemma mem_putItems {as : List α} {a b : α} :
    b ∈ putItems r key as a ↔ b = a ∨ b ∈ as ∧ key b ≠ key a := by
  by_cases h : key a ∈ as.map key
  · rw [putItems, if_pos h, List.mem_map]
    obtain ⟨c, hc, hca⟩ := List.mem_map.1 h
    constructor
    · rintro ⟨d, hd, rfl⟩
      by_cases hda : key d = key a
      · exact Or.inl (if_pos hda)
      · rw [if_neg hda]
        exact Or.inr ⟨hd, hda⟩
    · rintro (rfl | ⟨hb, hba⟩)
      · exact ⟨c, hc, if_pos hca⟩
      · exact ⟨b, hb, if_neg hba⟩
  · rw [putItems, if_neg h, List.mem_orderedInsert]
    refine or_congr_right ⟨fun hb => ⟨hb, fun hba => h ?_⟩, fun hb => hb.1⟩
    exact List.mem_map.2 ⟨b, hb, hba⟩

/-- Store an item. -/
def put (l : KeyedList key) (a : α) : KeyedList key :=
  ⟨putItems r key l.items a, nodup_putItems r l.nodup a⟩

lemma mem_put {l : KeyedList key} {a b : α} :
    b ∈ (l.put r a).items ↔ b = a ∨ b ∈ l.items ∧ key b ≠ key a :=
  mem_putItems r

lemma find_put_self (l : KeyedList key) (a : α) : (l.put r a).find (key a) = some a :=
  find_eq_some.2 ⟨(mem_put r).2 (Or.inl rfl), rfl⟩

lemma find_put_of_ne (l : KeyedList key) {a : α} {k : κ} (h : k ≠ key a) :
    (l.put r a).find k = l.find k := by
  refine Option.ext fun b => ?_
  rw [find_eq_some, find_eq_some, mem_put]
  constructor
  · rintro ⟨rfl | hb, rfl⟩
    · exact absurd rfl h
    · exact ⟨hb.1, rfl⟩
  · rintro ⟨hb, rfl⟩
    exact ⟨Or.inr ⟨hb, h⟩, rfl⟩

end Put

/-- Remove the item with the key `k`. -/
def erase (l : KeyedList key) (k : κ) : KeyedList key where
  items := l.items.filter fun a => key a ≠ k
  nodup := l.nodup.sublist (List.filter_sublist.map key)

end KeyedList
