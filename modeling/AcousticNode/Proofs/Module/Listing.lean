import AcousticNode.Proofs.Module.Inverse
import Mathlib.Data.List.Perm.Basic

/-!
# Values as listings

The value of a network, a graph or a reporting schedule lists the entries of a table: each is a key
of one octet and a few octets more, and the entries stand between some octets of their own.  Such a
value is read from a listing of the entries in any order, and written with their keys ascending.
Any other value is a listing without entries.

* `exists_entries_iff` : the values that are cut at entries of one length;
* `decode_eq_ok_iff` : a module is decoded from the listings of its value, and from nothing else;
* `sorted_listing` : the listing that is written has its keys ascending;
* `length_of_lists` : the order does not change the length.
-/

set_option autoImplicit false

namespace AcousticNode

open Outcome

/-- The octets of an entry: its key, and what stands behind the key. -/
def entryOctets (e : UInt8 × Bytes) : Bytes := e.1 :: e.2

theorem length_entries {n : Nat} {es : List (UInt8 × Bytes)} (h : ∀ e ∈ es, e.2.length = n) :
    (es.flatMap entryOctets).length = (n + 1) * es.length := by
  induction es with
  | nil => rfl
  | cons e es ih =>
    obtain ⟨hfirst, hrest⟩ := List.forall_mem_cons.mp h
    rw [List.flatMap_cons, List.length_append, ih hrest, entryOctets, List.length_cons, hfirst,
      List.length_cons, Nat.mul_succ, Nat.add_comm]

/-- Entries of one length fill every value that is as long as a number of them. -/
theorem exists_entries_iff {n : Nat} {v : Bytes} :
    (∃ es : List (UInt8 × Bytes), (∀ e ∈ es, e.2.length = n) ∧ es.flatMap entryOctets = v) ↔
      n + 1 ∣ v.length := by
  constructor
  · rintro ⟨es, h, rfl⟩
    exact ⟨es.length, length_entries h⟩
  · rintro ⟨k, hlen⟩
    induction k generalizing v with
    | zero =>
      obtain rfl : v = [] := List.eq_nil_of_length_eq_zero hlen
      exact ⟨[], List.forall_mem_nil _, rfl⟩
    | succ k ih =>
      cases v with
      | nil => simp at hlen
      | cons key rest =>
        rw [List.length_cons, Nat.mul_succ] at hlen
        obtain ⟨es, hes, hrest⟩ := ih (v := rest.drop n) (by rw [List.length_drop]; omega)
        refine ⟨(key, rest.take n) :: es, List.forall_mem_cons.mpr ⟨?_, hes⟩, ?_⟩
        · rw [List.length_take]
          omega
        · rw [List.flatMap_cons, hrest, entryOctets, List.cons_append, List.take_append_drop]

/-- A value cut at its entries, with the octets before them and behind them. -/
structure Listing where
  front : Bytes
  entries : List (UInt8 × Bytes)
  back : Bytes

namespace Listing

/-- The octets of a listing. -/
def spell (l : Listing) : Bytes := l.front ++ (l.entries.flatMap entryOctets ++ l.back)

/-- The same entries in another order. -/
def Reorders (l m : Listing) : Prop :=
  l.front = m.front ∧ l.entries.Perm m.entries ∧ l.back = m.back

theorem length_spell_of_reorders {l m : Listing} (h : l.Reorders m) :
    l.spell.length = m.spell.length := by
  obtain ⟨hfront, hperm, hback⟩ := h
  simp only [spell, List.length_append, hfront, hback, (hperm.flatMap_right entryOctets).length_eq]

end Listing

/-! ## The entries of tables -/

namespace Network

/-- A route as an entry. -/
def listed (e : Address × Address) : UInt8 × Bytes := (e.1.value, [e.2.value])

theorem writeRoutes_eq (es : List (Address × Address)) :
    writeRoutes es = (es.map listed).flatMap entryOctets := by
  induction es with
  | nil => rfl
  | cons e es ih =>
    rw [writeRoutes, ih]
    rfl

theorem length_writeRoutes (es : List (Address × Address)) :
    (writeRoutes es).length = 2 * es.length := by
  rw [writeRoutes_eq, length_entries (n := 1) (List.forall_mem_map.mpr fun _ _ => rfl),
    List.length_map]

end Network

namespace ModeGraph

/-- A transition as an entry. -/
def listed (e : Mode × Transition) : UInt8 × Bytes := (e.1, e.2.next :: wordOctets e.2.duration)

theorem writeEntries_eq_listed (es : List (Mode × Transition)) :
    writeEntries es = (es.map listed).flatMap entryOctets := by
  rw [writeEntries_eq, List.flatMap_map, List.flatMap_map]
  rfl

theorem length_writeEntries (es : List (Mode × Transition)) :
    (writeEntries es).length = 4 * es.length := by
  rw [writeEntries_eq_listed, length_entries (n := 3) (List.forall_mem_map.mpr fun _ _ => rfl),
    List.length_map]

end ModeGraph

namespace Reporting

/-- An entry of a schedule as an entry of a listing. -/
def listed (e : Mode × ReportEntry) : UInt8 × Bytes :=
  (e.1, wordOctets e.2.period ++ [Enumeration.byte e.2.report])

theorem writeEntries_eq_listed (es : List (Mode × ReportEntry)) :
    writeEntries es = (es.map listed).flatMap entryOctets := by
  rw [writeEntries_eq, List.flatMap_map, List.flatMap_map]
  rfl

theorem length_writeEntries (es : List (Mode × ReportEntry)) :
    (writeEntries es).length = 4 * es.length := by
  rw [writeEntries_eq_listed, length_entries (n := 3) (List.forall_mem_map.mpr fun _ _ => rfl),
    List.length_map]

end Reporting

/-! ## The listing of a module -/

namespace Module

/-- The value of a module as a listing. -/
def listing : Module → Listing
  | network n => ⟨[n.localAddress.value], n.routes.entries.map Network.listed, [n.gateway.value]⟩
  | modeGraph g => ⟨[], g.entries.map ModeGraph.listed, []⟩
  | reporting r =>
    ⟨[Enumeration.byte r.transport], r.entries.entries.map Reporting.listed, []⟩
  | m => ⟨m.value, [], []⟩

/-- A byte string lists the value of a module, with the entries in any order. -/
def Lists (m : Module) (v : Bytes) : Prop := ∃ l : Listing, l.Reorders m.listing ∧ l.spell = v

theorem spell_listing (m : Module) : m.listing.spell = m.value := by
  cases m
  case network n => rw [value, Network.write, Network.writeRoutes_eq]; rfl
  case modeGraph g =>
    rw [value, ModeGraph.write, ModeGraph.writeEntries_eq_listed]
    exact List.append_nil _
  case reporting r =>
    rw [value, Reporting.write, Reporting.writeEntries_eq_listed]
    exact congrArg (_ :: ·) (List.append_nil _)
  all_goals exact List.append_nil _

theorem lists_value (m : Module) : m.Lists m.value :=
  ⟨m.listing, ⟨rfl, .refl _, rfl⟩, m.spell_listing⟩

theorem length_of_lists {m : Module} {v : Bytes} (h : m.Lists v) :
    v.length = m.value.length := by
  obtain ⟨l, hl, rfl⟩ := h
  rw [Listing.length_spell_of_reorders hl, spell_listing]

/-- A value without entries has one listing. -/
theorem lists_iff_of_rigid {m : Module} (h : m.code.isRigid) {v : Bytes} :
    m.Lists v ↔ v = m.value := by
  constructor
  · have hentries : m.listing.entries = [] := by
      cases m <;> first | rfl | cases h
    rintro ⟨⟨front, entries, back⟩, ⟨hfront, hperm, hback⟩, rfl⟩
    rw [hentries] at hperm
    rw [← spell_listing, Listing.spell, Listing.spell, hentries, ← hfront, ← hback,
      hperm.eq_nil]
  · rintro rfl
    exact m.lists_value

/-- Listings with the entries of a table are spelled from its entries in any order. -/
theorem exists_reorders_iff {κ β : Type} {f : κ × β → UInt8 × Bytes} {es : List (κ × β)}
    {front back v : Bytes} :
    (∃ l : Listing, l.Reorders ⟨front, es.map f, back⟩ ∧ l.spell = v) ↔
      ∃ es' : List (κ × β), es'.Perm es ∧
        front ++ ((es'.map f).flatMap entryOctets ++ back) = v := by
  constructor
  · rintro ⟨⟨_, entries, _⟩, ⟨rfl, hperm, rfl⟩, rfl⟩
    obtain ⟨es', rfl, hes⟩ := (List.eq_map_comp_perm f ▸ hperm :
      Relation.Comp (· = List.map f ·) List.Perm entries es)
    exact ⟨es', hes, rfl⟩
  · rintro ⟨es', hes, rfl⟩
    exact ⟨⟨front, es'.map f, back⟩, ⟨rfl, hes.map f, rfl⟩, rfl⟩

theorem lists_network_iff {n : Network} {v : Bytes} :
    (network n).Lists v ↔ Network.read v = .ok n := by
  rw [Network.read_eq_ok_iff, Lists, listing, exists_reorders_iff]
  simp only [Network.writeRoutes_eq, List.cons_append, List.nil_append]

theorem lists_modeGraph_iff {g : ModeGraph} {v : Bytes} :
    (modeGraph g).Lists v ↔ ModeGraph.read v = .ok g := by
  rw [ModeGraph.read_eq_ok_iff, Lists, listing, exists_reorders_iff]
  simp only [ModeGraph.writeEntries_eq_listed, List.nil_append, List.append_nil]

theorem lists_reporting_iff {r : Reporting} {v : Bytes} :
    (reporting r).Lists v ↔ Reporting.read v = .ok r := by
  rw [Reporting.read_eq_ok_iff, Lists, listing, exists_reorders_iff]
  simp only [Reporting.writeEntries_eq_listed, List.cons_append, List.nil_append, List.append_nil]

/-- A value is decoded to the module that it lists. -/
theorem decode_eq_ok_iff {code : ModuleCode} {v : Bytes} {m : Module} :
    decode code v = .ok m ↔ m.code = code ∧ m.Lists v := by
  constructor
  · intro h
    have hcode := code_of_decode h
    refine ⟨hcode, ?_⟩
    cases hrigid : code.isRigid with
    | true =>
      rw [lists_iff_of_rigid (hcode ▸ hrigid)]
      exact (value_of_decode h hrigid).symm
    | false =>
      cases code <;> rw [decode] at h
      case network =>
        obtain ⟨n, hn, rfl⟩ := map_eq_ok.mp h
        exact lists_network_iff.mpr hn
      case modeGraph =>
        obtain ⟨g, hg, rfl⟩ := map_eq_ok.mp h
        exact lists_modeGraph_iff.mpr hg
      case reporting =>
        obtain ⟨r, hr, rfl⟩ := map_eq_ok.mp h
        exact lists_reporting_iff.mpr hr
      all_goals cases hrigid
  · rintro ⟨rfl, h⟩
    cases hrigid : m.code.isRigid with
    | true =>
      rw [(lists_iff_of_rigid hrigid).mp h]
      exact m.decode_value
    | false =>
      cases m <;> rw [code, decode]
      case network n => exact map_eq_ok.mpr ⟨n, lists_network_iff.mp h, rfl⟩
      case modeGraph g => exact map_eq_ok.mpr ⟨g, lists_modeGraph_iff.mp h, rfl⟩
      case reporting r => exact map_eq_ok.mpr ⟨r, lists_reporting_iff.mp h, rfl⟩
      all_goals cases hrigid

/-- The keys of the entries that are written ascend. -/
theorem sorted_listing (m : Module) : m.listing.entries.Pairwise fun a b => a.1 < b.1 := by
  cases m
  case network n => exact List.pairwise_map.mpr n.routes.sorted
  case modeGraph g => exact List.pairwise_map.mpr (Table.sorted g)
  case reporting r => exact List.pairwise_map.mpr r.entries.sorted
  all_goals exact .nil

end Module

end AcousticNode
