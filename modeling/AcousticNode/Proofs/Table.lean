import AcousticNode.Proofs.Outcome
import AcousticNode.Table
import Mathlib.Data.List.Forall2
import Mathlib.Data.List.Nodup

/-!
# Tables and their entries

A table is read from a list of entries if and only if the list has its entries, in any order; so no
key may be there twice.

* `get?_eq_some_iff` : looking a key up is finding its entry;
* `contains_iff_mem_keys`, `nodup_keys`, `rank_head_keys_le` : the keys, each once and the lowest
  one first;
* `collect_eq_ok_iff` : entries that are read one by one into a table;
* `ofDistinct_eq_ok_iff` : the same for entries that need no reading;
* `exists_perm_iff` : the lists of entries that make a table;
* `entries_eq_sortByKey`, `holds_of_perm` : the table that they make.
-/

set_option autoImplicit false

namespace AcousticNode.Table

open Outcome
open Rank (rank)

variable {κ β α ε : Type} [Rank κ]

theorem lookup_eq_some_iff {es : List (κ × β)} {k : κ} {v : β}
    (h : es.Pairwise fun a b => rank a.1 < rank b.1) : lookup k es = some v ↔ (k, v) ∈ es := by
  induction h with
  | nil => simp [lookup]
  | @cons e es hhead htail ih =>
    obtain ⟨k', v'⟩ := e
    simp only [lookup, List.mem_cons, Prod.mk.injEq]
    split
    · rename_i heq
      obtain rfl := rank_inj.mp heq
      -- the key stands nowhere further on, since it would have to be above itself
      have hnot : (k, v) ∉ es := fun hmem => Nat.lt_irrefl _ (hhead (k, v) hmem)
      simp [hnot, eq_comm]
    · rename_i hne
      have hk : k ≠ k' := fun h => hne (congrArg rank h)
      simp [hk, ih]

theorem get?_eq_some_iff (t : Table κ β) {k : κ} {v : β} :
    t.get? k = some v ↔ (k, v) ∈ t.entries :=
  lookup_eq_some_iff t.sorted

/-! ## Keys -/

theorem contains_iff_mem_keys (t : Table κ β) {k : κ} : t.contains k = true ↔ k ∈ t.keys := by
  simp only [contains, Option.isSome_iff_exists, get?_eq_some_iff, keys, List.mem_map]
  constructor
  · rintro ⟨v, hv⟩
    exact ⟨(k, v), hv, rfl⟩
  · rintro ⟨⟨k', v⟩, hv, rfl⟩
    exact ⟨v, hv⟩

theorem nodup_keys (t : Table κ β) : t.keys.Nodup := by
  refine List.pairwise_map.mpr (t.sorted.imp fun {a b} hlt heq => ?_)
  rw [heq] at hlt
  exact Nat.lt_irrefl _ hlt

theorem rank_head_keys_le (t : Table κ β) {k k' : κ} (h : t.keys.head? = some k)
    (hk' : t.contains k' = true) : rank k ≤ rank k' := by
  have hsorted : t.keys.Pairwise fun a b => rank a < rank b := List.pairwise_map.mpr t.sorted
  obtain ⟨rest, hkeys⟩ := List.head?_eq_some_iff.mp h
  rw [contains_iff_mem_keys, hkeys] at hk'
  rw [hkeys] at hsorted
  rcases List.mem_cons.mp hk' with rfl | hmem
  · exact Nat.le_refl _
  · exact Nat.le_of_lt (List.rel_of_pairwise_cons hsorted hmem)

/-! ## Entries in any order -/

/-- A table is told by its entries in any order. -/
theorem eq_of_perm {t u : Table κ β} (h : t.entries.Perm u.entries) : t = u :=
  ext_entries (h.eq_of_pairwise (fun _ _ _ _ hab hba => absurd hab (Nat.lt_asymm hba))
    t.sorted u.sorted)

theorem perm_insertEntry {k : κ} {v : β} {es : List (κ × β)} (h : lookup k es = none) :
    (insertEntry k v es).Perm ((k, v) :: es) := by
  induction es with
  | nil => exact .refl _
  | cons e es ih =>
    obtain ⟨k', v'⟩ := e
    simp only [lookup] at h
    split at h
    · cases h
    · rename_i hne
      simp only [insertEntry]
      split
      · exact .refl _
      · exact (List.Perm.cons _ (ih h)).trans (.swap _ _ _)

theorem contains_eq_false_iff {t : Table κ β} {k : κ} :
    t.contains k = false ↔ k ∉ t.keys := by
  rw [← contains_iff_mem_keys, Bool.not_eq_true]

theorem perm_insert {t : Table κ β} {k : κ} (v : β) (h : t.contains k = false) :
    (t.insert k v).entries.Perm ((k, v) :: t.entries) :=
  perm_insertEntry (by simpa [contains, get?] using h)

/-- Entries are read one by one into a table that holds them, in whatever order they come, beside
those that were there before. -/
theorem collect_eq_ok_iff {read : α → Except ε (κ × β)} {repeated : κ → ε} {as : List α}
    {t u : Table κ β} : collect read repeated t as = .ok u ↔
      ∃ es, List.Forall₂ (fun a e => read a = .ok e) as es ∧ u.entries.Perm (es ++ t.entries) := by
  induction as generalizing t with
  | nil =>
    constructor
    · intro h
      cases h
      exact ⟨[], .nil, .refl _⟩
    · rintro ⟨_, ⟨⟩, hperm⟩
      rw [eq_of_perm hperm]
      rfl
  | cons a as ih =>
    rw [collect, bind_eq_ok]
    constructor
    · rintro ⟨⟨k, v⟩, hread, h⟩
      simp only at h
      split at h
      · cases h
      · rename_i hfresh
        obtain ⟨es, hes, hperm⟩ := ih.mp h
        have hinsert := perm_insert v (Bool.not_eq_true _ ▸ hfresh)
        exact ⟨(k, v) :: es, .cons hread hes,
          hperm.trans ((hinsert.append_left es).trans List.perm_middle)⟩
    · rintro ⟨_, hall, hperm⟩
      cases hall with
      | @cons _ e _ es hread hes =>
        obtain ⟨k, v⟩ := e
        -- no key of the result is there twice, so this one was not there before
        have hnodup := (hperm.map Prod.fst).nodup_iff.mp u.nodup_keys
        simp only [List.cons_append, List.map_cons, List.map_append, List.nodup_cons,
          List.mem_append, not_or] at hnodup
        have hfresh : t.contains k = false := contains_eq_false_iff.mpr hnodup.1.2
        refine ⟨(k, v), hread, ?_⟩
        simp only [hfresh, Bool.false_eq_true, if_false]
        have hinsert := perm_insert v hfresh
        exact ih.mpr ⟨es, hes, hperm.trans
          (List.perm_middle.symm.trans (hinsert.symm.append_left es))⟩

/-- The same for entries that are each read from one spelling. -/
theorem collect_eq_ok_iff_of_write {read : α → Except ε (κ × β)} {write : κ × β → α}
    (hread : ∀ a e, read a = .ok e ↔ write e = a) {repeated : κ → ε} {as : List α}
    {t : Table κ β} : collect read repeated empty as = .ok t ↔
      ∃ es : List (κ × β), es.Perm t.entries ∧ es.map write = as := by
  have hall : ∀ es, List.Forall₂ (fun a e => read a = .ok e) as es ↔ es.map write = as := by
    intro es
    simp only [hread, eq_comm (b := as)]
    rw [← List.forall₂_eq_eq_eq, List.forall₂_map_right_iff]
    simp only [eq_comm]
  simp only [collect_eq_ok_iff, hall, show (empty : Table κ β).entries = [] from rfl,
    List.append_nil]
  exact exists_congr fun es => and_comm.trans (and_congr_left' (List.perm_comm))

theorem ofDistinct_eq_ok_iff {repeated : κ → ε} {es : List (κ × β)} {t : Table κ β} :
    ofDistinct repeated es = .ok t ↔ es.Perm t.entries := by
  have hread : ∀ a e : κ × β, (Except.ok a : Except ε (κ × β)) = .ok e ↔ id e = a := by
    simp [eq_comm]
  rw [ofDistinct, collect_eq_ok_iff_of_write hread]
  simp

theorem ofDistinct_entries (repeated : κ → ε) (t : Table κ β) :
    ofDistinct repeated t.entries = .ok t := ofDistinct_eq_ok_iff.mpr (.refl _)

/-- Entries make a table if no key is there twice. -/
theorem exists_perm_iff {es : List (κ × β)} :
    (∃ t : Table κ β, es.Perm t.entries) ↔ (es.map (·.1)).Nodup := by
  constructor
  · rintro ⟨t, h⟩
    exact (h.map Prod.fst).nodup_iff.mpr t.nodup_keys
  · intro h
    induction es with
    | nil => exact ⟨empty, .refl _⟩
    | cons e es ih =>
      obtain ⟨hfresh, hrest⟩ := List.nodup_cons.mp h
      obtain ⟨t, ht⟩ := ih hrest
      have hnot : e.1 ∉ t.keys := fun hmem => hfresh ((ht.map Prod.fst).mem_iff.mpr hmem)
      have hinsert := perm_insert e.2 (contains_eq_false_iff.mpr hnot)
      exact ⟨t.insert e.1 e.2, (ht.cons e).trans hinsert.symm⟩

/-- Entries with their keys ascending. -/
def sortByKey (es : List (κ × β)) : List (κ × β) :=
  es.mergeSort fun a b => rank a.1 ≤ rank b.1

/-- No two entries of a table have one key, so there is only one way to sort them. -/
theorem entries_eq_sortByKey {es : List (κ × β)} {t : Table κ β} (h : es.Perm t.entries) :
    t.entries = sortByKey es := by
  have hperm : t.entries.Perm (sortByKey es) := h.symm.trans (List.mergeSort_perm es _).symm
  have hsorted : (sortByKey es).Pairwise fun a b => rank a.1 ≤ rank b.1 := by
    have htrans : ∀ a b c : κ × β, decide (rank a.1 ≤ rank b.1) = true →
        decide (rank b.1 ≤ rank c.1) = true → decide (rank a.1 ≤ rank c.1) = true := by
      intro a b c hab hbc
      exact decide_eq_true (Nat.le_trans (of_decide_eq_true hab) (of_decide_eq_true hbc))
    have htotal : ∀ a b : κ × β,
        (decide (rank a.1 ≤ rank b.1) || decide (rank b.1 ≤ rank a.1)) = true := by
      intro a b
      simpa using Nat.le_total (rank a.1) (rank b.1)
    exact (List.pairwise_mergeSort htrans htotal es).imp of_decide_eq_true
  refine hperm.eq_of_pairwise (fun a b ha hb hab hba => ?_) (t.sorted.imp Nat.le_of_lt) hsorted
  have hkey : a.1 = b.1 := rank_inj.mp (Nat.le_antisymm hab hba)
  have hb' := (get?_eq_some_iff t).mpr (hperm.mem_iff.mpr hb)
  have ha' := (get?_eq_some_iff t).mpr ha
  rw [hkey, hb'] at ha'
  exact Prod.ext hkey (Option.some.inj ha').symm

/-- A table has the entries of a list, as many of them and no others. -/
def Holds (t : Table κ β) (es : List (κ × β)) : Prop :=
  t.size = es.length ∧ ∀ k v, t.get? k = some v ↔ (k, v) ∈ es

theorem holds_of_perm {es : List (κ × β)} {t : Table κ β} (h : es.Perm t.entries) :
    t.Holds es :=
  ⟨h.length_eq.symm, fun _ _ => (get?_eq_some_iff t).trans h.mem_iff.symm⟩

end AcousticNode.Table
