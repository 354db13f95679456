import Mathlib.Data.List.Sort
import Mathlib.Data.List.Forall2

/-! # Keyed lists

Entries with a key each, as a map keeps them. Over different keys two lists hold related values under
the same keys in any order if and only if they do so entry by entry once sorted.
-/

namespace Checked
set_option autoImplicit false

variable {κ α β : Type} {R : α → β → Prop}

/-- Different entries have different keys. -/
def KeysDistinct (entries : List (κ × α)) : Prop := (entries.map Prod.fst).Nodup

/-- Entries of one key hold one value. -/
theorem KeysDistinct.unique {entries : List (κ × α)} (h : KeysDistinct entries) {key : κ}
    {x y : α} (hx : (key, x) ∈ entries) (hy : (key, y) ∈ entries) : x = y := by
  have heq := List.inj_on_of_nodup_map h hx hy rfl
  exact congrArg Prod.snd heq

theorem KeysDistinct.filter {entries : List (κ × α)} (h : KeysDistinct entries)
    (keep : κ × α → Bool) : KeysDistinct (entries.filter keep) :=
  h.sublist (List.filter_sublist.map Prod.fst)

theorem KeysDistinct.of_cons {entry : κ × α} {entries : List (κ × α)}
    (h : KeysDistinct (entry :: entries)) : KeysDistinct entries :=
  (List.nodup_cons.mp h).2

/-- The values under each key of the one list are related to those of the other, and neither has a
key of its own. -/
structure SameEntries (R : α → β → Prop) (xs : List (κ × α)) (ys : List (κ × β)) : Prop where
  related : ∀ key x, (key, x) ∈ xs → ∃ y, (key, y) ∈ ys ∧ R x y
  keys : ∀ key y, (key, y) ∈ ys → ∃ x, (key, x) ∈ xs

/-- Entry by entry. -/
abbrev EntryWise (R : α → β → Prop) (xs : List (κ × α)) (ys : List (κ × β)) : Prop :=
  List.Forall₂ (fun x y => x.1 = y.1 ∧ R x.2 y.2) xs ys

theorem entryWise_map {γ δ : Type} {S : γ → δ → Prop} {f : α → γ} {g : β → δ} {xs : List (κ × α)}
    {ys : List (κ × β)} :
    EntryWise S (xs.map fun e => (e.1, f e.2)) (ys.map fun e => (e.1, g e.2)) ↔
      EntryWise (fun x y => S (f x) (g y)) xs ys := by
  unfold EntryWise
  rw [List.forall₂_map_left_iff, List.forall₂_map_right_iff]

theorem SameEntries.of_entryWise {xs : List (κ × α)} {ys : List (κ × β)} (h : EntryWise R xs ys) :
    SameEntries R xs ys := by
  induction h with
  | nil =>
      constructor
      · intro key x hmem
        cases hmem
      · intro key y hmem
        cases hmem
  | @cons x y xs ys hhead htail ih =>
      obtain ⟨key, x⟩ := x
      obtain ⟨key', y⟩ := y
      obtain ⟨rfl, hrel⟩ := hhead
      constructor
      · intro k v hmem
        rcases List.mem_cons.mp hmem with heq | hmem
        · cases heq
          exact ⟨y, List.mem_cons_self, hrel⟩
        · obtain ⟨w, hw, hvw⟩ := ih.related k v hmem
          exact ⟨w, List.mem_cons_of_mem _ hw, hvw⟩
      · intro k w hmem
        rcases List.mem_cons.mp hmem with heq | hmem
        · cases heq
          exact ⟨x, List.mem_cons_self⟩
        · obtain ⟨v, hv⟩ := ih.keys k w hmem
          exact ⟨v, List.mem_cons_of_mem _ hv⟩

/-- Lists with the same keys in the same places, and related values under each key. -/
theorem entryWise_of_keys {xs : List (κ × α)} {ys : List (κ × β)}
    (hkeys : xs.map Prod.fst = ys.map Prod.fst)
    (hrel : ∀ key x y, (key, x) ∈ xs → (key, y) ∈ ys → R x y) : EntryWise R xs ys := by
  induction xs generalizing ys with
  | nil =>
      rw [List.map_nil, eq_comm, List.map_eq_nil_iff] at hkeys
      rw [hkeys]
      exact .nil
  | cons x xs ih =>
      obtain ⟨key, x⟩ := x
      cases ys with
      | nil => cases hkeys
      | cons y ys =>
          obtain ⟨key', y⟩ := y
          rw [List.map_cons, List.map_cons, List.cons.injEq] at hkeys
          obtain ⟨rfl, hkeys⟩ := hkeys
          refine .cons ⟨rfl, hrel key x y List.mem_cons_self List.mem_cons_self⟩ (ih hkeys ?_)
          intro k v w hv hw
          exact hrel k v w (List.mem_cons_of_mem _ hv) (List.mem_cons_of_mem _ hw)

section
variable [LinearOrder κ]

/-- The entries in the order of their keys. -/
def sortKeys (entries : List (κ × α)) : List (κ × α) :=
  entries.mergeSort (fun a b => decide (a.1 ≤ b.1))

theorem sortKeys_perm (entries : List (κ × α)) : (sortKeys entries).Perm entries :=
  List.mergeSort_perm entries _

@[simp] theorem mem_sortKeys {entries : List (κ × α)} {entry : κ × α} :
    entry ∈ sortKeys entries ↔ entry ∈ entries :=
  (sortKeys_perm entries).mem_iff

theorem KeysDistinct.sortKeys {entries : List (κ × α)} (h : KeysDistinct entries) :
    KeysDistinct (sortKeys entries) :=
  ((sortKeys_perm entries).map Prod.fst).nodup_iff.mpr h

/-- The keys come out in order. -/
theorem sortKeys_sorted (entries : List (κ × α)) :
    ((sortKeys entries).map Prod.fst).Pairwise (· ≤ ·) := by
  rw [List.pairwise_map]
  have h : (entries.mergeSort (fun a b => decide (a.1 ≤ b.1))).Pairwise
      (fun a b => decide (a.1 ≤ b.1) = true) :=
    List.pairwise_mergeSort (fun a b c => by simpa using le_trans)
      (fun a b => by simpa using le_total a.1 b.1) entries
  exact h.imp of_decide_eq_true

/-- Sorting is by the keys alone. -/
theorem sortKeys_map (f : α → β) (entries : List (κ × α)) :
    sortKeys (entries.map fun e => (e.1, f e.2)) =
      (sortKeys entries).map fun e => (e.1, f e.2) := by
  unfold sortKeys
  rw [List.map_mergeSort]
  intro a _ b _
  rfl

/-- Sorted lists of distinct keys agree entry by entry if and only if the unsorted ones do in some
order. -/
theorem entryWise_sortKeys_iff {xs : List (κ × α)} {ys : List (κ × β)} (hxs : KeysDistinct xs)
    (hys : KeysDistinct ys) :
    EntryWise R (sortKeys xs) (sortKeys ys) ↔ SameEntries R xs ys := by
  constructor
  · intro h
    obtain ⟨hrelated, hkeys⟩ := SameEntries.of_entryWise h
    simp only [mem_sortKeys] at hrelated hkeys
    exact ⟨hrelated, hkeys⟩
  · intro h
    apply entryWise_of_keys
    · apply List.Perm.eq_of_pairwise' (sortKeys_sorted xs) (sortKeys_sorted ys)
      refine (List.perm_ext_iff_of_nodup hxs.sortKeys hys.sortKeys).mpr fun key => ?_
      simp only [List.mem_map, Prod.exists, exists_and_right, exists_eq_right, mem_sortKeys]
      constructor
      · rintro ⟨x, hx⟩
        obtain ⟨y, hy, -⟩ := h.related key x hx
        exact ⟨y, hy⟩
      · rintro ⟨y, hy⟩
        exact h.keys key y hy
    · intro key x y hx hy
      obtain ⟨y', hy', hrel⟩ := h.related key x (mem_sortKeys.mp hx)
      rwa [hys.unique (mem_sortKeys.mp hy) hy']

/-- Two lists of the same entries in the order of their keys are one. -/
theorem eq_of_sorted {xs ys : List (κ × α)} (hxs : KeysDistinct xs) (hys : KeysDistinct ys)
    (hsorted : (xs.map Prod.fst).Pairwise (· ≤ ·)) (hsorted' : (ys.map Prod.fst).Pairwise (· ≤ ·))
    (hmem : ∀ e, e ∈ xs ↔ e ∈ ys) : xs = ys := by
  have hperm : xs.Perm ys :=
    (List.perm_ext_iff_of_nodup (List.Nodup.of_map _ hxs) (List.Nodup.of_map _ hys)).mpr hmem
  have hkeys : xs.map Prod.fst = ys.map Prod.fst :=
    List.Perm.eq_of_pairwise' hsorted hsorted' (hperm.map Prod.fst)
  have hentries : EntryWise (fun x y => x = y) xs ys := by
    refine entryWise_of_keys hkeys fun key x y hx hy => ?_
    exact hys.unique ((hmem _).mp hx) hy
  have heq : List.Forall₂ Eq xs ys := hentries.imp fun x y hxy => Prod.ext hxy.1 hxy.2
  rwa [List.forall₂_eq_eq_eq] at heq

/-- Entries can be left out before or after sorting. -/
theorem filter_sortKeys {entries : List (κ × α)} (h : KeysDistinct entries)
    (keep : κ × α → Bool) : (sortKeys entries).filter keep = sortKeys (entries.filter keep) := by
  apply eq_of_sorted (h.sortKeys.filter keep) (h.filter keep).sortKeys
  · exact (sortKeys_sorted entries).sublist (List.filter_sublist.map Prod.fst)
  · exact sortKeys_sorted _
  · intro e
    simp only [List.mem_filter, mem_sortKeys]

end

end Checked
