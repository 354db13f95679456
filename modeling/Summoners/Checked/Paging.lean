import Mathlib.Data.Nat.Notation
import Mathlib.Tactic.Common

/-! # Paging

A collection is read in pages: each page names the cursor of the next one, until one names none. A
page that holds the next `size` entries from its position, and names a cursor of the position behind
them exactly when entries remain there, makes the pages followed from a position hold what remains
of the collection, in order.
-/

namespace Checked
set_option autoImplicit false

variable {Cursor Page α : Type}

/-- The pages read from a cursor up to the one that names no next cursor. -/
inductive Followed (fetch : Option Cursor → Option Page) (next : Page → Option Cursor) :
    Option Cursor → List Page → Prop
  | last {cursor : Option Cursor} {page : Page} (hpage : fetch cursor = some page)
      (hnext : next page = none) : Followed fetch next cursor [page]
  | more {cursor : Option Cursor} {page : Page} {following : Cursor} {pages : List Page}
      (hpage : fetch cursor = some page) (hnext : next page = some following)
      (hpages : Followed fetch next (some following) pages) : Followed fetch next cursor (page :: pages)

variable {fetch : Option Cursor → Option Page} {next : Page → Option Cursor}

/-- There is one way to follow the pages. -/
theorem Followed.unique {cursor : Option Cursor} {pages pages' : List Page}
    (h : Followed fetch next cursor pages) (h' : Followed fetch next cursor pages') :
    pages = pages' := by
  induction h generalizing pages' with
  | last hpage hnext =>
    cases h' with
    | last hpage' hnext' => rw [Option.some.inj (hpage.symm.trans hpage')]
    | more hpage' hnext' hpages' =>
      obtain rfl := Option.some.inj (hpage.symm.trans hpage')
      cases hnext.symm.trans hnext'
  | more hpage hnext hpages ih =>
    cases h' with
    | last hpage' hnext' =>
      obtain rfl := Option.some.inj (hpage.symm.trans hpage')
      cases hnext.symm.trans hnext'
    | more hpage' hnext' hpages' =>
      obtain rfl := Option.some.inj (hpage.symm.trans hpage')
      obtain rfl := Option.some.inj (hnext.symm.trans hnext')
      rw [ih hpages']

/-- A page at the position `k` of the collection. -/
structure PageAt (items : Page → List α) (next : Page → Option Cursor) (At : Option Cursor → ℕ → Prop)
    (l : List α) (size k : ℕ) (page : Page) : Prop where
  items : items page = (l.drop k).take size
  last : l.length ≤ k + size → next page = none
  more : k + size < l.length → ∃ following, next page = some following ∧ At (some following) (k + size)

/-- By induction on what remains. -/
theorem exists_followed {items : Page → List α} {At : Option Cursor → ℕ → Prop} {l : List α}
    {size : ℕ} (hsize : 0 < size)
    (hfetch : ∀ cursor k, At cursor k → ∃ page, fetch cursor = some page ∧
      PageAt items next At l size k page)
    {cursor : Option Cursor} {k : ℕ} (hcursor : At cursor k) :
    ∃ pages, Followed fetch next cursor pages ∧ pages.flatMap items = l.drop k ∧
      ∀ page ∈ pages, (items page).length ≤ size := by
  induction hremains : l.length - k using Nat.strongRecOn generalizing cursor k with
  | ind remains ih =>
    obtain ⟨page, hpage, hat⟩ := hfetch cursor k hcursor
    have hshort : (items page).length ≤ size := by
      rw [hat.items]
      exact List.length_take_le _ _
    by_cases hmore : k + size < l.length
    · obtain ⟨following, hnext, hfollowing⟩ := hat.more hmore
      obtain ⟨pages, hpages, hflat, hlength⟩ := ih (l.length - (k + size)) (by omega) hfollowing rfl
      refine ⟨page :: pages, .more hpage hnext hpages, ?_, List.forall_mem_cons.mpr ⟨hshort, hlength⟩⟩
      rw [List.flatMap_cons, hflat, hat.items, ← List.drop_drop, List.take_append_drop]
    · have hend : l.length ≤ k + size := by omega
      refine ⟨[page], .last hpage (hat.last hend), ?_, List.forall_mem_singleton.mpr hshort⟩
      rw [List.flatMap_singleton, hat.items]
      apply List.take_of_length_le
      rw [List.length_drop]
      omega

end Checked
